import ScoreSheet.Proofs.Document.Fitting
import ScoreSheet.Proofs.Json.Bounds
set_option autoImplicit false

namespace ScoreSheet.Document
open Json (Fits)

variable {α : Type} {ok : Float → Prop} {room : Nat} {v : Json}

theorem pairItems_mem {form : Form} {count : Nat} {fields : List Field} {items : List Json}
    {ms : Members} (h : pairItems form count fields items = .ok ms) : ∀ m ∈ ms, m.2 ∈ items := by
  induction fields generalizing count items ms with
  | nil =>
    cases items with
    | nil =>
      cases h
      exact List.forall_mem_nil _
    | cons w rest => cases h
  | cons f fields ih =>
    cases items with
    | nil =>
      unfold pairItems at h
      split at h
      · exact ih h
      · cases h
    | cons w rest =>
      unfold pairItems at h
      obtain ⟨_, -, h⟩ := bind_ok h
      obtain ⟨ms, hms, h⟩ := bind_ok h
      cases h
      exact List.forall_mem_cons.2
        ⟨List.mem_cons_self, fun m hm => List.mem_cons_of_mem w (ih hms m hm)⟩

theorem members_fits {form : Form} {ms : Members} (h : form.members v = .ok ms)
    (hv : Fits ok (room + 1) v) : ∀ m ∈ ms, Fits ok room m.2 := by
  cases hv with
  | object distinct hm =>
    obtain ⟨_, -, rfl⟩ := map_ok h
    exact hm
  | array hi => exact fun m hm => hi m.2 (pairItems_mem h m hm)
  | _ => cases h

theorem mem_of_lookup {ms : Members} {name : String} {w : Json} (h : ms.lookup name = some w) :
    (name, w) ∈ ms := by
  obtain ⟨before, behind, rfl, -⟩ := List.lookup_eq_some_iff.1 h
  exact List.mem_append_right before List.mem_cons_self

section Members
variable {ms : Members} (hms : ∀ m ∈ ms, Fits ok room m.2) {name : String} {decode : Decoder α}
  {x : α}
include hms

theorem required_ok (h : required ms name decode = .ok x) :
    ∃ w, Fits ok room w ∧ decode w = .ok x := by
  unfold required at h
  split at h
  · rename_i w hw
    exact ⟨w, hms _ (mem_of_lookup hw), h⟩
  · cases h

theorem optional_ok (h : optional ms name decode = .ok (some x)) :
    ∃ w, Fits ok room w ∧ decode w = .ok x := by
  unfold optional at h
  split at h
  · rename_i w hw
    unfold nullable at h
    split at h
    · cases h
    · obtain ⟨y, hy, same⟩ := map_ok h
      cases same
      exact ⟨w, hms _ (mem_of_lookup hw), hy⟩
  · cases h

end Members

theorem sequence_ok {decode : Decoder α} {xs : List α} (h : sequence decode v = .ok xs)
    (hv : Fits ok (room + 1) v) : ∀ x ∈ xs, ∃ w, Fits ok room w ∧ decode w = .ok x := by
  cases hv with
  | array hi =>
    intro x hx
    obtain ⟨w, hw, hx⟩ := mapM_ok h x hx
    exact ⟨w, hi w hw, hx⟩
  | _ => cases h

theorem dictionary_ascending {decode : Decoder α} {ms : Members} {name : String}
    {entries : Keyed α} (h : withDefault ms name (dictionary decode) [] = .ok entries) :
    entries.Ascending := by
  unfold withDefault at h
  split at h
  · obtain ⟨read, -, rfl⟩ := map_ok h
    exact Keyed.ofList_ascending read
  · cases h
    exact .nil

theorem natural_lt {n : Nat} (h : natural v = .ok n) : n < 2 ^ 32 := by
  unfold natural at h
  split at h
  · split at h
    · rename_i bound
      cases h
      exact bound.2
    · cases h
  · cases h

theorem isFinite_integer {n : Int} (h : Json.Wide n) : Number.isFinite (Float.ofInt n) = true :=
  Number.isFinite_ofInt (by unfold Json.Wide at h; omega)

theorem number_isFinite {x : Float} (h : number v = .ok x)
    (hv : Fits (Number.isFinite · = true) room v) : Number.isFinite x = true := by
  cases hv with
  | integer room wide =>
    cases h
    exact isFinite_integer wide
  | real room hx =>
    cases h
    exact hx
  | _ => cases h

theorem datum_isFinite {d : Datum} (h : datum v = .ok d)
    (hv : Fits (Number.isFinite · = true) room v) : d.IsFinite := by
  cases hv with
  | integer room wide =>
    cases h
    rintro x ⟨⟩
    exact isFinite_integer wide
  | real room hx =>
    cases h
    rintro x ⟨⟩
    exact hx
  | bool | string =>
    cases h
    rintro x ⟨⟩
  | _ => cases h

theorem version_small {x : Version} (h : version v = .ok x) (hv : Fits ok (room + 1) v) :
    x.Small := by
  obtain ⟨ms, hms, h⟩ := bind_ok h
  obtain ⟨major, hmajor, h⟩ := bind_ok h
  obtain ⟨minor, hminor, h⟩ := bind_ok h
  obtain ⟨patch, hpatch, h⟩ := bind_ok h
  cases h
  have fits := members_fits hms hv
  obtain ⟨_, -, hmajor⟩ := required_ok fits hmajor
  obtain ⟨_, -, hminor⟩ := required_ok fits hminor
  obtain ⟨_, -, hpatch⟩ := required_ok fits hpatch
  exact ⟨natural_lt hmajor, natural_lt hminor, natural_lt hpatch⟩

theorem point_isFinite {p : Point} (h : point v = .ok p)
    (hv : Fits (Number.isFinite · = true) (room + 1) v) :
    Number.isFinite p.x = true ∧ Number.isFinite p.y = true := by
  obtain ⟨ms, hms, h⟩ := bind_ok h
  obtain ⟨x, hx, h⟩ := bind_ok h
  obtain ⟨y, hy, h⟩ := bind_ok h
  cases h
  have fits := members_fits hms hv
  obtain ⟨_, hvx, hx⟩ := required_ok fits hx
  obtain ⟨_, hvy, hy⟩ := required_ok fits hy
  exact ⟨number_isFinite hx hvx, number_isFinite hy hvy⟩

theorem size_isFinite {s : Size} (h : size v = .ok s)
    (hv : Fits (Number.isFinite · = true) (room + 1) v) :
    Number.isFinite s.width = true ∧ Number.isFinite s.height = true := by
  obtain ⟨ms, hms, h⟩ := bind_ok h
  obtain ⟨width, hw, h⟩ := bind_ok h
  obtain ⟨height, hh, h⟩ := bind_ok h
  cases h
  have fits := members_fits hms hv
  obtain ⟨_, hvw, hw⟩ := required_ok fits hw
  obtain ⟨_, hvh, hh⟩ := required_ok fits hh
  exact ⟨number_isFinite hw hvw, number_isFinite hh hvh⟩

theorem element_wellFormed {e : Element} (h : element v = .ok e)
    (hv : Fits (Number.isFinite · = true) (room + 2) v) : e.WellFormed := by
  obtain ⟨ms, hms, h⟩ := bind_ok h
  obtain ⟨id, -, h⟩ := bind_ok h
  obtain ⟨kind, -, h⟩ := bind_ok h
  obtain ⟨center, hcenter, h⟩ := bind_ok h
  obtain ⟨size, hsize, h⟩ := bind_ok h
  obtain ⟨options, hoptions, h⟩ := bind_ok h
  obtain ⟨rules, hrules, h⟩ := bind_ok h
  cases h
  have fits := members_fits hms hv
  obtain ⟨_, hvc, hcenter⟩ := required_ok fits hcenter
  obtain ⟨_, hvs, hsize⟩ := required_ok fits hsize
  refine ⟨point_isFinite hcenter hvc, size_isFinite hsize hvs, ?_, dictionary_ascending hrules⟩
  rintro ds ⟨⟩ d hd
  obtain ⟨_, hvo, hoptions⟩ := optional_ok fits hoptions
  obtain ⟨_, hvd, hd⟩ := sequence_ok hoptions hvo d hd
  exact datum_isFinite hd hvd

theorem entry_isFinite {e : Entry} (h : entry v = .ok e)
    (hv : Fits (Number.isFinite · = true) (room + 1) v) : ∀ d ∈ e.value, d.IsFinite := by
  obtain ⟨ms, hms, h⟩ := bind_ok h
  obtain ⟨id, -, h⟩ := bind_ok h
  obtain ⟨value, hvalue, h⟩ := bind_ok h
  obtain ⟨disabled, -, h⟩ := bind_ok h
  cases h
  rintro d ⟨⟩
  obtain ⟨_, hvd, hd⟩ := optional_ok (members_fits hms hv) hvalue
  exact datum_isFinite hd hvd

theorem ruleSet_ascending {r : RuleSet} (h : ruleSet v = .ok r) : r.functions.Ascending := by
  obtain ⟨ms, -, h⟩ := bind_ok h
  obtain ⟨name, -, h⟩ := bind_ok h
  obtain ⟨functions, hf, h⟩ := bind_ok h
  obtain ⟨win, -, h⟩ := bind_ok h
  obtain ⟨lose, -, h⟩ := bind_ok h
  cases h
  exact dictionary_ascending hf

theorem sheet_wellFormed {s : Sheet} (h : sheet v = .ok s)
    (hv : Fits (Number.isFinite · = true) 127 v) : s.WellFormed := by
  obtain ⟨ms, hms, h⟩ := bind_ok h
  obtain ⟨name, -, h⟩ := bind_ok h
  obtain ⟨x, hx, h⟩ := bind_ok h
  obtain ⟨ruleSets, hrs, h⟩ := bind_ok h
  obtain ⟨elements, hes, h⟩ := bind_ok h
  obtain ⟨resources, hres, h⟩ := bind_ok h
  cases h
  have fits := members_fits hms hv
  obtain ⟨_, hvx, hx⟩ := required_ok fits hx
  obtain ⟨_, hves, hes⟩ := required_ok fits hes
  refine ⟨version_small hx hvx, ?_, fun e he => ?_, ?_⟩
  · rintro rs ⟨⟩ r hr
    obtain ⟨_, hvrs, hrs⟩ := optional_ok fits hrs
    obtain ⟨_, -, hr⟩ := sequence_ok hrs hvrs r hr
    exact ruleSet_ascending hr
  · obtain ⟨_, hve, he⟩ := sequence_ok hes hves e he
    exact element_wellFormed he hve
  · rintro vs ⟨⟩ w hw
    obtain ⟨_, hvvs, hvs⟩ := optional_ok fits hres
    obtain ⟨_, hvw, hw⟩ := sequence_ok hvs hvvs w hw
    cases hw
    exact hvw

theorem parseJson_eq_ok {text : String} {v : Json} (h : parseJson text = .ok v) :
    Json.parse text = .ok v := by
  unfold parseJson at h
  split at h
  · cases h
  · exact mapError_ok h

end ScoreSheet.Document
