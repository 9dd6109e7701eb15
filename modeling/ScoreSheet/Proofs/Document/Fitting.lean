import ScoreSheet.Document.Reading
import ScoreSheet.Proofs.Document.RoundTrip
import ScoreSheet.Proofs.Json.RoundTrip
set_option autoImplicit false

namespace ScoreSheet

structure Element.WellFormed (e : Element) : Prop where
  center : Number.isFinite e.center.x = true ∧ Number.isFinite e.center.y = true
  size : Number.isFinite e.size.width = true ∧ Number.isFinite e.size.height = true
  options : ∀ ds ∈ e.options, ∀ d ∈ ds, d.IsFinite
  rules : e.rules.Ascending

structure Sheet.WellFormed (s : Sheet) : Prop where
  version : s.version.Small
  functions : ∀ rs ∈ s.ruleSets, ∀ r ∈ rs, r.functions.Ascending
  elements : ∀ e ∈ s.elements, e.WellFormed
  resources : ∀ vs ∈ s.resources, ∀ v ∈ vs, Json.Fits (Number.isFinite · = true) 125 v

namespace Document
open Json (Fits ReadsBack nestingLimit)

variable {α : Type} {ok : Float → Prop} {room : Nat}

theorem listOf_fits {encode : α → Json} {xs : List α} (h : ∀ x ∈ xs, Fits ok room (encode x)) :
    Fits ok (room + 1) (listOf encode xs) := by
  refine .array fun v hv => ?_
  obtain ⟨x, hx, rfl⟩ := List.mem_map.1 hv
  exact h x hx

theorem optionalMember_fits {name : String} {encode : α → Json} {x : Option α}
    (h : ∀ a ∈ x, Fits ok room (encode a)) :
    ∀ m ∈ optionalMember name encode x, Fits ok room m.2 := by
  cases x with
  | none => exact List.forall_mem_nil _
  | some a => exact List.forall_mem_singleton.2 (h a rfl)

theorem dictionaryMember_fits {name : String} {encode : α → Json} {entries : Keyed α}
    (sorted : entries.Ascending) (h : ∀ e ∈ entries, Fits ok room (encode e.2)) :
    ∀ m ∈ dictionaryMember name encode entries, Fits ok (room + 1) m.2 := by
  unfold dictionaryMember
  split
  · exact List.forall_mem_nil _
  · refine List.forall_mem_singleton.2 (.object ?_ fun m hm => ?_)
    · rw [List.map_map]
      exact sorted.nodup
    · obtain ⟨e, he, rfl⟩ := List.mem_map.1 hm
      exact h e he

theorem ofDatum_fits {d : Datum} (h : d.IsFinite) (room : Nat) :
    Fits (Number.isFinite · = true) room (ofDatum d) := by
  cases d with
  | bool b => exact .bool room b
  | number x =>
    rcases ofDatum_number x with ⟨n, -, hn, written, -⟩ | ⟨written, -⟩
    · rw [written]
      exact .integer room (by unfold Json.Wide; omega)
    · rw [written]
      exact .real room (h x rfl)
  | text s => exact .string room s

theorem ofNat_fits {n : Nat} (h : n < 2 ^ 32) : Fits ok room (ofNat n) :=
  .integer room (by unfold Json.Wide; omega)

theorem ofEntry_fits {e : Entry} (h : ∀ d ∈ e.value, d.IsFinite) (room : Nat) :
    Fits (Number.isFinite · = true) (room + 1) (ofEntry e) := by
  refine .object (keys_entry e) (List.forall_mem_cons.2 ⟨.string room e.id, ?_⟩)
  exact List.forall_mem_append.2 ⟨optionalMember_fits fun d hd => ofDatum_fits (h d hd) room,
    optionalMember_fits fun b _ => .bool room b⟩

theorem ofVersion_fits {v : Version} (h : v.Small) : Fits ok (room + 1) (ofVersion v) := by
  refine .object (keys_version v) (List.forall_mem_cons.2 ⟨ofNat_fits h.1, ?_⟩)
  exact List.forall_mem_cons.2 ⟨ofNat_fits h.2.1, List.forall_mem_singleton.2 (ofNat_fits h.2.2)⟩

theorem ofFunctionSource_fits (f : FunctionSource) : Fits ok (room + 1) (ofFunctionSource f) :=
  .array (List.forall_mem_cons.2
    ⟨.string room f.parameters, List.forall_mem_singleton.2 (.string room f.body)⟩)

theorem ofRuleSet_fits {r : RuleSet} (h : r.functions.Ascending) :
    Fits ok (room + 3) (ofRuleSet r) := by
  refine .object (keys_ruleSet r) (List.forall_mem_cons.2 ⟨.string _ r.name, ?_⟩)
  exact List.forall_mem_append.2 ⟨List.forall_mem_append.2
    ⟨dictionaryMember_fits h fun f _ => ofFunctionSource_fits f.2,
      optionalMember_fits fun s _ => .string _ s⟩, optionalMember_fits fun s _ => .string _ s⟩

theorem ofPoint_fits {p : Point}
    (h : Number.isFinite p.x = true ∧ Number.isFinite p.y = true) :
    Fits (Number.isFinite · = true) (room + 1) (ofPoint p) :=
  .object (by change ["x", "y"].Nodup; decide) (List.forall_mem_cons.2
    ⟨.real room h.1, List.forall_mem_singleton.2 (.real room h.2)⟩)

theorem ofSize_fits {s : Size}
    (h : Number.isFinite s.width = true ∧ Number.isFinite s.height = true) :
    Fits (Number.isFinite · = true) (room + 1) (ofSize s) :=
  .object (by change ["width", "height"].Nodup; decide) (List.forall_mem_cons.2
    ⟨.real room h.1, List.forall_mem_singleton.2 (.real room h.2)⟩)

theorem ofElement_fits {e : Element} (h : e.WellFormed) :
    Fits (Number.isFinite · = true) (room + 2) (ofElement e) := by
  have fixed : ∀ m ∈ [("id", Json.string e.id), ("type", .string e.kind.name),
      ("position", ofPoint e.center), ("size", ofSize e.size)],
      Fits (Number.isFinite · = true) (room + 1) m.2 :=
    List.forall_mem_cons.2 ⟨.string _ e.id, List.forall_mem_cons.2 ⟨.string _ e.kind.name,
      List.forall_mem_cons.2 ⟨ofPoint_fits h.center,
        List.forall_mem_singleton.2 (ofSize_fits h.size)⟩⟩⟩
  refine .object (keys_element e) (List.forall_mem_append.2 ⟨List.forall_mem_append.2 ⟨fixed, ?_⟩,
    dictionaryMember_fits h.rules fun r _ => .string _ r.2⟩)
  exact optionalMember_fits fun ds hds => listOf_fits fun d hd => ofDatum_fits (h.options ds hds d hd) _

theorem ofSheet_fits {s : Sheet} (h : s.WellFormed) :
    Fits (Number.isFinite · = true) 127 (ofSheet s) := by
  have fixed : ∀ m ∈ [("name", Json.string s.name), ("version", ofVersion s.version)],
      Fits (Number.isFinite · = true) 126 m.2 :=
    List.forall_mem_cons.2 ⟨.string _ s.name, List.forall_mem_singleton.2 (ofVersion_fits h.version)⟩
  have ruleSets : ∀ m ∈ optionalMember "ruleSets" (listOf ofRuleSet) s.ruleSets,
      Fits (Number.isFinite · = true) 126 m.2 :=
    optionalMember_fits fun rs hrs => listOf_fits fun r hr => ofRuleSet_fits (h.functions rs hrs r hr)
  have elements : Fits (Number.isFinite · = true) 126 (listOf ofElement s.elements) :=
    listOf_fits fun e he => ofElement_fits (h.elements e he)
  have resources : ∀ m ∈ optionalMember "res" Json.array s.resources,
      Fits (Number.isFinite · = true) 126 m.2 :=
    optionalMember_fits fun vs hvs => .array (h.resources vs hvs)
  exact .object (keys_sheet s) (List.forall_mem_append.2 ⟨List.forall_mem_append.2
    ⟨List.forall_mem_append.2 ⟨fixed, ruleSets⟩, List.forall_mem_singleton.2 elements⟩, resources⟩)

theorem parseJson_ok {text : String} {v : Json} {c : Char} {cs : List Char}
    (head : text.toList = c :: cs) (hc : Text.isBlank c = false) (h : Json.parse text = .ok v) :
    parseJson text = .ok v := by
  unfold parseJson isBlankText
  rw [head, List.all_cons, hc, Bool.false_and, if_neg Bool.false_ne_true, h]
  rfl

theorem parseJson_compact {items : List Json} (h : Fits ReadsBack nestingLimit (.array items)) :
    parseJson (Json.array items).compact = .ok (.array items) :=
  parseJson_ok (Json.toList_compact 0 _) (by decide) (Json.parse_compact h)

theorem parseJson_pretty {ms : Members} (h : Fits ReadsBack nestingLimit (.object ms)) :
    parseJson (Json.object ms).pretty = .ok (.object ms) :=
  parseJson_ok (Json.toList_prettyAt 0 _) (by decide) (Json.parse_pretty h)

end Document
end ScoreSheet
