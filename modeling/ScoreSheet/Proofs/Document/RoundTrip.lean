import ScoreSheet.Proofs.Document.Fields
import ScoreSheet.Proofs.Number.Whole
import ScoreSheet.Proofs.State.Contents
set_option autoImplicit false

/-! A decoder gives back what an encoder wrote, but for the numbers among the values, which
settle: whole ones of at most 53 bits lose the sign of a zero. A record with settled
numbers is written in the same way. -/
namespace ScoreSheet

/-- The float of the whole number that a float is, if that has at most 53 bits. -/
def Number.settled (x : Float) : Float :=
  match toInt? x with
  | some n => if n.natAbs < Nat.pow 2 53 then .ofInt n else x
  | none => x

def Datum.settled : Datum → Datum
  | .number x => .number (Number.settled x)
  | d => d

def Entry.settled (e : Entry) : Entry := { e with value := e.value.map Datum.settled }

def Element.settled (e : Element) : Element :=
  { e with options := e.options.map (·.map Datum.settled) }

def Sheet.settled (s : Sheet) : Sheet := { s with elements := s.elements.map Element.settled }

def Version.Small (v : Version) : Prop :=
  v.major < 2 ^ 32 ∧ v.minor < 2 ^ 32 ∧ v.patch < 2 ^ 32

theorem Number.parts_ne_nan {x : Float} (h : isFinite x = true) : parts x ≠ .nan := by
  intro hp
  rw [isFinite, hp] at h
  cases h

/-- Two lists are equal when their items are, one by one. -/
theorem map_beq {α : Type} [BEq α] {f : α → α} {xs : List α}
    (h : ∀ x ∈ xs, (f x == x) = true) : (xs.map f == xs) = true := by
  induction xs with
  | nil => rfl
  | cons x xs ih =>
    obtain ⟨hx, hxs⟩ := List.forall_mem_cons.1 h
    rw [List.map_cons]
    exact Bool.and_eq_true_iff.2 ⟨hx, ih hxs⟩

namespace Document

/-- A number is written as a whole one or as it is. -/
theorem ofDatum_number (x : Float) :
    (∃ n, Number.toInt? x = some n ∧ n.natAbs < 2 ^ 53 ∧ ofDatum (.number x) = .integer n ∧
      Number.settled x = .ofInt n) ∨
    (ofDatum (.number x) = .real x ∧ Number.settled x = x) := by
  unfold ofDatum Number.settled
  dsimp only
  cases h : Number.toInt? x with
  | none => exact .inr ⟨rfl, rfl⟩
  | some n =>
    dsimp only
    by_cases hn : n.natAbs < Nat.pow 2 53
    · rw [if_pos hn, if_pos hn]
      exact .inl ⟨n, rfl, hn, rfl, rfl⟩
    · rw [if_neg hn, if_neg hn]
      exact .inr ⟨rfl, rfl⟩

theorem ofDatum_whole {x : Float} {n : Int} (h : Number.toInt? x = some n)
    (hn : n.natAbs < 2 ^ 53) : ofDatum (.number x) = .integer n := by
  unfold ofDatum
  dsimp only
  rw [h]
  exact if_pos hn

theorem ofDatum_settled (d : Datum) : ofDatum d.settled = ofDatum d := by
  cases d with
  | bool b => rfl
  | number x =>
    change ofDatum (.number (Number.settled x)) = _
    rcases ofDatum_number x with ⟨n, hx, hn, written, settled⟩ | ⟨-, settled⟩
    · rw [settled, written]
      exact ofDatum_whole (Number.toInt?_ofInt hx hn) hn
    · rw [settled]
  | text s => rfl

theorem datum_ofDatum (d : Datum) : datum (ofDatum d) = .ok d.settled := by
  cases d with
  | bool b => rfl
  | number x =>
    change _ = Except.ok (Datum.number (Number.settled x))
    rcases ofDatum_number x with ⟨n, -, -, written, settled⟩ | ⟨written, settled⟩
    · rw [settled, written]
      rfl
    · rw [settled, written]
      rfl
  | text s => rfl

/-- A finite number settles on one that is equal to it. -/
theorem settled_beq {d : Datum} (h : d.IsFinite) : (d.settled == d) = true := by
  cases d with
  | bool b => exact beq_self_eq_true b
  | number x =>
    change (Number.settled x == x) = true
    rcases ofDatum_number x with ⟨n, hx, hn, -, settled⟩ | ⟨-, settled⟩
    · rw [settled]
      exact Number.beq_ofInt hx hn
    · rw [settled]
      exact Number.beq_self (Number.parts_ne_nan (h x rfl))
  | text s => exact beq_self_eq_true s

theorem entry_beq {e : Entry} (h : ∀ d ∈ e.value, d.IsFinite) : (e.settled == e) = true := by
  have value : (e.value.map Datum.settled == e.value) = true := by
    cases hv : e.value with
    | none => rfl
    | some d => exact settled_beq (h d hv)
  change (e.id == e.id && e.value.map Datum.settled == e.value && e.disabled == e.disabled) = true
  rw [beq_self_eq_true, value, beq_self_eq_true]
  rfl

theorem ofDatum_ne_null (d : Datum) : ofDatum d ≠ .null := by
  intro h
  have decoded := datum_ofDatum d
  rw [h] at decoded
  cases decoded

theorem sequence_datum (ds : List Datum) :
    sequence datum (listOf ofDatum ds) = .ok (ds.map Datum.settled) :=
  sequence_listOf fun d _ => datum_ofDatum d

theorem optionalMember_map {α : Type} {encode : α → Json} {g : α → α}
    (h : ∀ a, encode (g a) = encode a) (name : String) (x : Option α) :
    optionalMember name encode (x.map g) = optionalMember name encode x := by
  cases x with
  | none => rfl
  | some a => exact congrArg (fun v => [(name, v)]) (h a)

theorem listOf_map {α : Type} {encode : α → Json} {g : α → α}
    (h : ∀ a, encode (g a) = encode a) (xs : List α) :
    listOf encode (xs.map g) = listOf encode xs := by
  unfold listOf
  rw [List.map_map]
  exact congrArg (fun f => Json.array (xs.map f)) (funext h)

theorem kind_name (k : ElementKind) : kind (.string k.name) = .ok k := by
  cases k <;> rfl

theorem natural_ofNat {n : Nat} (h : n < 2 ^ 32) : natural (ofNat n) = .ok n :=
  if_pos ⟨Int.natCast_nonneg n, h⟩

def entryMembers (e : Entry) : Members :=
  ("id", .string e.id) ::
    (optionalMember "value" ofDatum e.value ++ optionalMember "disabled" .bool e.disabled)

theorem keys_entry (e : Entry) : ((entryMembers e).map Prod.fst).Nodup := by
  have names := ((keys_optionalMember "value" ofDatum e.value).append
    (keys_optionalMember "disabled" .bool e.disabled)).cons_cons "id"
  unfold entryMembers
  rw [List.map_cons, List.map_append]
  exact names.nodup (by decide)

theorem ofEntry_settled (e : Entry) : ofEntry e.settled = ofEntry e := by
  unfold ofEntry Entry.settled
  rw [optionalMember_map ofDatum_settled]

theorem entry_ofEntry (e : Entry) : entry (ofEntry e) = .ok e.settled := by
  change entry (.object (entryMembers e)) = _
  have distinct := keys_entry e
  obtain ⟨ms, hms⟩ : ∃ ms, ms = entryMembers e := ⟨_, rfl⟩
  rw [← hms] at distinct ⊢
  unfold entryMembers at hms
  have id := required_written (show ms.lookup "id" = some (.string e.id) by simp [hms])
    (show string _ = .ok e.id from rfl)
  have value := optional_written
    (show ms.lookup "value" = e.value.map ofDatum by
      simp [hms, List.lookup_cons, List.lookup_append])
    fun d _ => ⟨ofDatum_ne_null d, datum_ofDatum d⟩
  have disabled := optional_written
    (show ms.lookup "disabled" = e.disabled.map Json.bool by
      simp [hms, List.lookup_cons, List.lookup_append])
    fun b _ => ⟨nofun, show boolean _ = .ok b from rfl⟩
  have read : entryForm.members (.object ms) = .ok ms :=
    Form.members_object distinct (List.forall_mem_cons.2 ⟨id.2,
      List.forall_mem_cons.2 ⟨value.2 _, List.forall_mem_singleton.2 (disabled.2 _)⟩⟩)
  unfold entry
  rw [read]
  dsimp only [bind, Except.bind]
  rw [id.1, value.1, disabled.1, Option.map_id']
  rfl

def versionMembers (v : Version) : Members :=
  [("major", ofNat v.major), ("minor", ofNat v.minor), ("patch", ofNat v.patch)]

theorem keys_version (v : Version) : ((versionMembers v).map Prod.fst).Nodup := by
  change ["major", "minor", "patch"].Nodup
  decide

theorem version_ofVersion {v : Version} (h : v.Small) : version (ofVersion v) = .ok v := by
  change version (.object (versionMembers v)) = _
  have distinct := keys_version v
  obtain ⟨ms, hms⟩ : ∃ ms, ms = versionMembers v := ⟨_, rfl⟩
  rw [← hms] at distinct ⊢
  unfold versionMembers at hms
  have major := required_written (show ms.lookup "major" = some (ofNat v.major) by simp [hms])
    (natural_ofNat h.1)
  have minor := required_written
    (show ms.lookup "minor" = some (ofNat v.minor) by simp [hms, List.lookup_cons])
    (natural_ofNat h.2.1)
  have patch := required_written
    (show ms.lookup "patch" = some (ofNat v.patch) by simp [hms, List.lookup_cons])
    (natural_ofNat h.2.2)
  have read : versionForm.members (.object ms) = .ok ms :=
    Form.members_object distinct (List.forall_mem_cons.2 ⟨major.2,
      List.forall_mem_cons.2 ⟨minor.2, List.forall_mem_singleton.2 patch.2⟩⟩)
  unfold version
  rw [read]
  dsimp only [bind, Except.bind]
  rw [major.1, minor.1, patch.1]

theorem functionSource_ofFunctionSource (f : FunctionSource) :
    functionSource (ofFunctionSource f) = .ok f :=
  rfl

def ruleSetMembers (r : RuleSet) : Members :=
  ("name", .string r.name) ::
    (dictionaryMember "customFunctions" ofFunctionSource r.functions ++
      optionalMember "winCondition" .string r.winCondition ++
      optionalMember "loseCondition" .string r.loseCondition)

theorem keys_ruleSet (r : RuleSet) : ((ruleSetMembers r).map Prod.fst).Nodup := by
  have names := (((keys_dictionaryMember "customFunctions" ofFunctionSource r.functions).append
    (keys_optionalMember "winCondition" .string r.winCondition)).append
    (keys_optionalMember "loseCondition" .string r.loseCondition)).cons_cons "name"
  unfold ruleSetMembers
  rw [List.map_cons, List.map_append, List.map_append]
  exact names.nodup (by decide)

theorem ruleSet_ofRuleSet {r : RuleSet} (h : r.functions.Ascending) :
    ruleSet (ofRuleSet r) = .ok r := by
  change ruleSet (.object (ruleSetMembers r)) = _
  have distinct := keys_ruleSet r
  obtain ⟨ms, hms⟩ : ∃ ms, ms = ruleSetMembers r := ⟨_, rfl⟩
  rw [← hms] at distinct ⊢
  unfold ruleSetMembers at hms
  have name := required_written (show ms.lookup "name" = some (.string r.name) by simp [hms])
    (show string _ = .ok r.name from rfl)
  have functions := dictionary_written
    (show ms.lookup "customFunctions" = dictionary? ofFunctionSource r.functions by
      simp [hms, List.lookup_cons, List.lookup_append])
    h fun f _ => functionSource_ofFunctionSource f.2
  have win := optional_written
    (show ms.lookup "winCondition" = r.winCondition.map Json.string by
      simp [hms, List.lookup_cons, List.lookup_append])
    fun s _ => ⟨nofun, show string _ = .ok s from rfl⟩
  have lose := optional_written
    (show ms.lookup "loseCondition" = r.loseCondition.map Json.string by
      simp [hms, List.lookup_cons, List.lookup_append])
    fun s _ => ⟨nofun, show string _ = .ok s from rfl⟩
  have read : ruleSetForm.members (.object ms) = .ok ms :=
    Form.members_object distinct (List.forall_mem_cons.2 ⟨name.2,
      List.forall_mem_cons.2 ⟨functions.2, List.forall_mem_cons.2 ⟨win.2 _,
        List.forall_mem_singleton.2 (lose.2 _)⟩⟩⟩)
  unfold ruleSet
  rw [read]
  dsimp only [bind, Except.bind]
  rw [name.1, functions.1, win.1, lose.1, Option.map_id', Option.map_id']

theorem sequence_ruleSet {rs : List RuleSet} (h : ∀ r ∈ rs, r.functions.Ascending) :
    sequence ruleSet (listOf ofRuleSet rs) = .ok rs := by
  rw [sequence_listOf (g := fun r => r) fun r hr => ruleSet_ofRuleSet (h r hr), List.map_id']

def ofPoint (p : Point) : Json := .object [("x", .real p.x), ("y", .real p.y)]

def ofSize (s : Size) : Json := .object [("width", .real s.width), ("height", .real s.height)]

def elementMembers (e : Element) : Members :=
  [("id", .string e.id), ("type", .string e.kind.name), ("position", ofPoint e.center),
    ("size", ofSize e.size)] ++
    optionalMember "options" (listOf ofDatum) e.options ++ dictionaryMember "rules" .string e.rules

theorem keys_element (e : Element) : ((elementMembers e).map Prod.fst).Nodup := by
  have names := ((List.Sublist.refl ["id", "type", "position", "size"]).append
    (keys_optionalMember "options" (listOf ofDatum) e.options)).append
    (keys_dictionaryMember "rules" .string e.rules)
  unfold elementMembers
  rw [List.map_append, List.map_append]
  exact names.nodup (by decide)

theorem ofElement_settled (e : Element) : ofElement e.settled = ofElement e := by
  unfold ofElement Element.settled
  rw [optionalMember_map (listOf_map ofDatum_settled)]

theorem element_ofElement {e : Element} (h : e.rules.Ascending) :
    element (ofElement e) = .ok e.settled := by
  change element (.object (elementMembers e)) = _
  have distinct := keys_element e
  obtain ⟨ms, hms⟩ : ∃ ms, ms = elementMembers e := ⟨_, rfl⟩
  rw [← hms] at distinct ⊢
  unfold elementMembers at hms
  have id := required_written (show ms.lookup "id" = some (.string e.id) by simp [hms])
    (show string _ = .ok e.id from rfl)
  have kind := required_written
    (show ms.lookup "type" = some (.string e.kind.name) by simp [hms, List.lookup_cons])
    (kind_name e.kind)
  have center := required_written
    (show ms.lookup "position" = some (ofPoint e.center) by simp [hms, List.lookup_cons])
    (show point _ = .ok e.center from rfl)
  have size := required_written
    (show ms.lookup "size" = some (ofSize e.size) by simp [hms, List.lookup_cons])
    (show size _ = .ok e.size from rfl)
  have options := optional_written
    (show ms.lookup "options" = e.options.map (listOf ofDatum) by
      simp [hms, List.lookup_cons, List.lookup_append])
    fun ds _ => ⟨nofun, sequence_datum ds⟩
  have rules := dictionary_written
    (show ms.lookup "rules" = dictionary? Json.string e.rules by
      simp [hms, List.lookup_cons, List.lookup_append])
    h fun r _ => show string _ = .ok r.2 from rfl
  have read : elementForm.members (.object ms) = .ok ms :=
    Form.members_object distinct (List.forall_mem_cons.2 ⟨id.2,
      List.forall_mem_cons.2 ⟨kind.2, List.forall_mem_cons.2 ⟨center.2,
        List.forall_mem_cons.2 ⟨size.2, List.forall_mem_cons.2 ⟨options.2 _,
          List.forall_mem_singleton.2 rules.2⟩⟩⟩⟩⟩)
  unfold element
  rw [read]
  dsimp only [bind, Except.bind]
  rw [id.1, kind.1, center.1, size.1, options.1, rules.1]
  rfl

def sheetMembers (s : Sheet) : Members :=
  [("name", .string s.name), ("version", ofVersion s.version)] ++
    optionalMember "ruleSets" (listOf ofRuleSet) s.ruleSets ++
    [("elements", listOf ofElement s.elements)] ++ optionalMember "res" .array s.resources

theorem keys_sheet (s : Sheet) : ((sheetMembers s).map Prod.fst).Nodup := by
  have names := (((List.Sublist.refl ["name", "version"]).append
    (keys_optionalMember "ruleSets" (listOf ofRuleSet) s.ruleSets)).append
    (List.Sublist.refl ["elements"])).append (keys_optionalMember "res" .array s.resources)
  unfold sheetMembers
  rw [List.map_append, List.map_append, List.map_append]
  exact names.nodup (by decide)

theorem ofSheet_settled (s : Sheet) : ofSheet s.settled = ofSheet s := by
  unfold ofSheet Sheet.settled
  rw [listOf_map ofElement_settled]

theorem sequence_any (vs : List Json) : sequence .ok (.array vs) = .ok vs := by
  have same := mapM_map (f := fun v => (.ok v : Except ShapeError Json)) (g := id) (h := id)
    fun v (_ : v ∈ vs) => rfl
  rw [List.map_id] at same
  exact same

theorem sheet_ofSheet {s : Sheet} (hv : s.version.Small)
    (hr : ∀ rs ∈ s.ruleSets, ∀ r ∈ rs, r.functions.Ascending)
    (he : ∀ e ∈ s.elements, e.rules.Ascending) : sheet (ofSheet s) = .ok s.settled := by
  change sheet (.object (sheetMembers s)) = _
  have distinct := keys_sheet s
  obtain ⟨ms, hms⟩ : ∃ ms, ms = sheetMembers s := ⟨_, rfl⟩
  rw [← hms] at distinct ⊢
  unfold sheetMembers at hms
  have name := required_written (show ms.lookup "name" = some (.string s.name) by simp [hms])
    (show string _ = .ok s.name from rfl)
  have version := required_written
    (show ms.lookup "version" = some (ofVersion s.version) by simp [hms, List.lookup_cons])
    (version_ofVersion hv)
  have ruleSets := optional_written
    (show ms.lookup "ruleSets" = s.ruleSets.map (listOf ofRuleSet) by
      simp [hms, List.lookup_cons, List.lookup_append])
    fun rs hrs => ⟨nofun, sequence_ruleSet (hr rs hrs)⟩
  have elements := required_written
    (show ms.lookup "elements" = some (listOf ofElement s.elements) by
      simp [hms, List.lookup_cons, List.lookup_append])
    (sequence_listOf fun e h => element_ofElement (he e h))
  have resources := optional_written
    (show ms.lookup "res" = s.resources.map Json.array by
      simp [hms, List.lookup_cons, List.lookup_append])
    fun vs _ => ⟨nofun, sequence_any vs⟩
  have read : sheetForm.members (.object ms) = .ok ms :=
    Form.members_object distinct (List.forall_mem_cons.2 ⟨name.2,
      List.forall_mem_cons.2 ⟨version.2, List.forall_mem_cons.2 ⟨ruleSets.2 _,
        List.forall_mem_cons.2 ⟨elements.2, List.forall_mem_singleton.2 (resources.2 _)⟩⟩⟩⟩)
  unfold sheet
  rw [read]
  dsimp only [bind, Except.bind]
  rw [name.1, version.1, ruleSets.1, elements.1, resources.1, Option.map_id', Option.map_id']
  rfl

end Document
end ScoreSheet
