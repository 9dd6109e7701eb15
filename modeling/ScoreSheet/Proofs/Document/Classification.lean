import ScoreSheet.Proofs.Document.Failure
import ScoreSheet.Proofs.Document.Wording
set_option autoImplicit false

/-! Only the type of an element can name something that is not known. Every other error of a
document is about a value that is not the wanted one, and its class says so unless its
message has other words, or too few, because of what it quotes. -/
namespace ScoreSheet.Document

variable {α : Type}

/-! ## Where a record fails -/

/-- The value stands for the field in what should be of the form, and all in front of it
can be read. -/
inductive ReadUpTo (form : Form) : Json → Field → Json → Prop where
  | member {before behind : Members} {key : String} {w : Json} {f : Field}
      (readable : checkMembers form.fields before = .ok ())
      (hf : form.fields.find? (·.name == key) = some f) :
      ReadUpTo form (.object (before ++ (key, w) :: behind)) f w
  | item {before behind : List Field} {vs vs' : List Json} {w : Json} {f : Field}
      (hf : form.fields = before ++ f :: behind)
      (readable : List.Forall₂ (fun f v => f.check v = .ok ()) before vs) :
      ReadUpTo form (.array (vs ++ w :: vs')) f w

variable {form : Form} {v w : Json} {f : Field} {e : ShapeError}

theorem ReadUpTo.field_mem (h : ReadUpTo form v f w) : f ∈ form.fields := by
  cases h with
  | member _ hf => exact List.mem_of_find?_eq_some hf
  | item hf => exact hf ▸ List.mem_append_right _ List.mem_cons_self

theorem checkMembers_append {fields : List Field} {before behind : Members}
    (h : checkMembers fields before = .ok ()) :
    checkMembers fields (before ++ behind) = checkMembers fields behind := by
  induction before with
  | nil => rfl
  | cons m rest ih =>
    rw [checkMembers_cons] at h
    obtain ⟨_, hm, hr⟩ := bind_ok h
    rw [List.cons_append, checkMembers_cons, hm]
    exact ih hr

theorem pairItems_append {count : Nat} {before behind : List Field} {vs vs' : List Json}
    (readable : List.Forall₂ (fun f v => f.check v = .ok ()) before vs)
    (he : ∀ count, pairItems form count behind vs' = .error e) :
    pairItems form count (before ++ behind) (vs ++ vs') = .error e := by
  induction readable generalizing count with
  | nil => exact he count
  | cons hv _ ih =>
    rw [List.cons_append, List.cons_append, pairItems, hv]
    dsimp only [bind, Except.bind]
    rw [ih]

/-- A record fails with what stands for a field if all in front of it can be read. -/
theorem ReadUpTo.members_error (h : ReadUpTo form v f w) (he : f.check w = .error e) :
    form.members v = .error e := by
  cases h with
  | member readable hf =>
    unfold Form.members
    dsimp only
    rw [checkMembers_append readable, checkMembers_cons,
      checkMembers_single.2 ⟨_, hf, he⟩]
    rfl
  | item hf readable =>
    unfold Form.members
    dsimp only
    rw [hf]
    refine pairItems_append readable fun count => ?_
    rw [pairItems, he]
    rfl

theorem checkMembers_error {fields : List Field} {ms : Members}
    (h : checkMembers fields ms = .error e) : ∃ before key w behind f,
      ms = before ++ (key, w) :: behind ∧ checkMembers fields before = .ok () ∧
        fields.find? (·.name == key) = some f ∧ f.check w = .error e := by
  induction ms with
  | nil => cases h
  | cons m rest ih =>
    rw [checkMembers_cons] at h
    rcases bind_error h with hm | ⟨_, hm, hr⟩
    · obtain ⟨key, w⟩ := m
      obtain ⟨f, hf, he⟩ := checkMembers_single.1 hm
      exact ⟨[], key, w, rest, f, rfl, rfl, hf, he⟩
    · obtain ⟨before, key, w, behind, f, rfl, readable, hf, he⟩ := ih hr
      refine ⟨m :: before, key, w, behind, f, rfl, ?_, hf, he⟩
      rw [checkMembers_cons, hm]
      exact readable

theorem pairItems_error (hform : Bare form.name.describe) {count : Nat} {fields : List Field}
    {items : List Json} (h : pairItems form count fields items = .error e) :
    e.Plain ∨ ∃ before f behind vs w vs', fields = before ++ f :: behind ∧
      items = vs ++ w :: vs' ∧ List.Forall₂ (fun f v => f.check v = .ok ()) before vs ∧
        f.check w = .error e := by
  induction fields generalizing count items with
  | nil =>
    cases items with
    | nil => cases h
    | cons w rest =>
      cases h
      exact .inl trivial
  | cons f fields ih =>
    cases items with
    | nil =>
      unfold pairItems at h
      split at h
      · rcases ih h with plain | ⟨_, _, _, vs, _, _, _, none, _⟩
        · exact .inl plain
        · exact absurd none (by simp)
      · cases h
        exact .inl hform
    | cons w rest =>
      unfold pairItems at h
      rcases bind_error h with hw | ⟨_, hw, h⟩
      · exact .inr ⟨[], f, fields, [], w, rest, rfl, rfl, .nil, hw⟩
      · rcases bind_error h with hr | ⟨_, -, h⟩
        · rcases ih hr with plain | ⟨before, g, behind, vs, x, vs', rfl, rfl, readable, he⟩
          · exact .inl plain
          · exact .inr ⟨f :: before, g, behind, w :: vs, x, vs', rfl, rfl, .cons hw readable, he⟩
        · cases h

theorem members_error (hform : Bare form.name.describe) (h : form.members v = .error e) :
    e.Plain ∨ ∃ f w, ReadUpTo form v f w ∧ f.check w = .error e := by
  unfold Form.members at h
  split at h
  · obtain ⟨before, key, w, behind, f, rfl, readable, hf, he⟩ := checkMembers_error (map_error h)
    exact .inr ⟨f, w, .member readable hf, he⟩
  · refine (pairItems_error hform h).imp_right ?_
    rintro ⟨before, f, behind, vs, w, vs', hf, rfl, readable, he⟩
    exact ⟨f, w, .item hf readable, he⟩
  · cases h
    exact .inl hform

/-! ## Errors of the decoders -/

section Decoders
variable (v : Json)

theorem string_fails : FailsWith ShapeError.Plain (string v) := by
  have bare : Bare Expectation.string.describe := by decide
  unfold string
  split
  · exact .ok _
  · exact .error bare

theorem boolean_fails : FailsWith ShapeError.Plain (boolean v) := by
  have bare : Bare Expectation.boolean.describe := by decide
  unfold boolean
  split
  · exact .ok _
  · exact .error bare

theorem number_fails : FailsWith ShapeError.Plain (number v) := by
  have bare : Bare Expectation.number.describe := by decide
  unfold number
  split
  · exact .ok _
  · exact .ok _
  · exact .error bare

theorem natural_fails : FailsWith ShapeError.Plain (natural v) := by
  have bare : Bare Expectation.natural.describe := by decide
  unfold natural
  split
  · split
    · exact .ok _
    · exact .error bare
  · exact .error bare

theorem datum_fails : FailsWith ShapeError.Plain (datum v) := by
  intro e h
  cases v <;> cases h <;> rfl

variable {p : ShapeError → Prop} {decode : Decoder α} (h : ∀ v, FailsWith p (decode v))
include h

theorem nullable_fails : FailsWith p (nullable decode v) := by
  unfold nullable
  split
  · exact .ok _
  · exact (h _).map

variable (plain : ∀ e, e.Plain → p e)
include plain

theorem sequence_fails : FailsWith p (sequence decode v) := by
  have bare : Bare Expectation.sequence.describe := by decide
  unfold sequence
  split
  · exact .mapM h _
  · exact .error (plain _ bare)

theorem dictionary_fails : FailsWith p (dictionary decode v) := by
  have bare : Bare Expectation.mapping.describe := by decide
  unfold dictionary mapping
  refine .map ?_
  split
  · exact .mapM (fun ⟨_, w⟩ => (h w).map) _
  · exact .error (plain _ bare)

end Decoders

/-! ## Errors of the records -/

section Records
variable {p : ShapeError → Prop} (plain : ∀ e, e.Plain → p e) {ms : Members} {name : String}
  {decode : Decoder α}

theorem required_fails (missing : p (.missing name)) (h : ∀ v, FailsWith p (decode v)) :
    FailsWith p (required ms name decode) := by
  unfold required
  split
  · exact h _
  · exact .error missing

theorem optional_fails (h : ∀ v, FailsWith p (decode v)) :
    FailsWith p (optional ms name decode) := by
  unfold optional
  split
  · exact nullable_fails _ h
  · exact .ok _

theorem withDefault_fails (h : ∀ v, FailsWith p (decode v)) (default : α) :
    FailsWith p (withDefault ms name decode default) := by
  unfold withDefault
  split
  · exact h _
  · exact .ok _

theorem members_fails (plain : ∀ e, e.Plain → p e) (hform : Bare form.name.describe)
    (h : ∀ f ∈ form.fields, ∀ v, FailsWith p (f.check v)) : FailsWith p (form.members v) := by
  intro e he
  rcases members_error hform he with he | ⟨f, w, upTo, he⟩
  · exact plain e he
  · exact h f upTo.field_mem w e he

end Records

theorem version_fails (v : Json) : FailsWith ShapeError.Plain (version v) := by
  have read : ∀ f ∈ versionForm.fields, ∀ v, FailsWith ShapeError.Plain (f.check v) := by
    simp only [versionForm, List.forall_mem_cons]
    exact ⟨fun v => (natural_fails v).map, fun v => (natural_fails v).map,
      fun v => (natural_fails v).map, List.forall_mem_nil _⟩
  have bare : Bare versionForm.name.describe ∧ Bare "major" ∧ Bare "minor" ∧ Bare "patch" := by
    decide
  obtain ⟨form, major, minor, patch⟩ := bare
  exact (members_fails (fun _ => id) form read).bind fun _ =>
    (required_fails major natural_fails).bind fun _ =>
      (required_fails minor natural_fails).bind fun _ =>
        (required_fails patch natural_fails).bind fun _ => .ok _

theorem point_fails (v : Json) : FailsWith ShapeError.Plain (point v) := by
  have read : ∀ f ∈ pointForm.fields, ∀ v, FailsWith ShapeError.Plain (f.check v) := by
    simp only [pointForm, List.forall_mem_cons]
    exact ⟨fun v => (number_fails v).map, fun v => (number_fails v).map, List.forall_mem_nil _⟩
  have bare : Bare pointForm.name.describe ∧ Bare "x" ∧ Bare "y" := by decide
  obtain ⟨form, x, y⟩ := bare
  exact (members_fails (fun _ => id) form read).bind fun _ =>
    (required_fails x number_fails).bind fun _ =>
      (required_fails y number_fails).bind fun _ => .ok _

theorem size_fails (v : Json) : FailsWith ShapeError.Plain (size v) := by
  have read : ∀ f ∈ sizeForm.fields, ∀ v, FailsWith ShapeError.Plain (f.check v) := by
    simp only [sizeForm, List.forall_mem_cons]
    exact ⟨fun v => (number_fails v).map, fun v => (number_fails v).map, List.forall_mem_nil _⟩
  have bare : Bare sizeForm.name.describe ∧ Bare "width" ∧ Bare "height" := by decide
  obtain ⟨form, width, height⟩ := bare
  exact (members_fails (fun _ => id) form read).bind fun _ =>
    (required_fails width number_fails).bind fun _ =>
      (required_fails height number_fails).bind fun _ => .ok _

theorem functionSource_fails (v : Json) : FailsWith ShapeError.Plain (functionSource v) := by
  have read : ∀ f ∈ functionSourceForm.fields, ∀ v, FailsWith ShapeError.Plain (f.check v) := by
    simp only [functionSourceForm, List.forall_mem_cons]
    exact ⟨fun v => (string_fails v).map, fun v => (string_fails v).map, List.forall_mem_nil _⟩
  have bare : Bare functionSourceForm.name.describe ∧ Bare "0" ∧ Bare "1" := by decide
  obtain ⟨form, parameters, body⟩ := bare
  unfold functionSource
  split
  · exact (members_fails (fun _ => id) form read).bind fun _ =>
      (required_fails parameters string_fails).bind fun _ =>
        (required_fails body string_fails).bind fun _ => .ok _
  · exact .error form

theorem ruleSet_fails (v : Json) : FailsWith ShapeError.Plain (ruleSet v) := by
  have functions := fun v => dictionary_fails v functionSource_fails (fun _ => id)
  have condition := fun v => nullable_fails v string_fails
  have read : ∀ f ∈ ruleSetForm.fields, ∀ v, FailsWith ShapeError.Plain (f.check v) := by
    simp only [ruleSetForm, List.forall_mem_cons]
    exact ⟨fun v => (string_fails v).map, fun v => (functions v).map,
      fun v => (condition v).map, fun v => (condition v).map, List.forall_mem_nil _⟩
  have bare : Bare ruleSetForm.name.describe ∧ Bare "name" := by decide
  obtain ⟨form, name⟩ := bare
  exact (members_fails (fun _ => id) form read).bind fun _ =>
    (required_fails name string_fails).bind fun _ =>
      (withDefault_fails functions []).bind fun _ =>
        (optional_fails string_fails).bind fun _ =>
          (optional_fails string_fails).bind fun _ => .ok _

theorem entry_fails (v : Json) : FailsWith ShapeError.Plain (entry v) := by
  have read : ∀ f ∈ entryForm.fields, ∀ v, FailsWith ShapeError.Plain (f.check v) := by
    simp only [entryForm, List.forall_mem_cons]
    exact ⟨fun v => (string_fails v).map, fun v => (nullable_fails v datum_fails).map,
      fun v => (nullable_fails v boolean_fails).map, List.forall_mem_nil _⟩
  have bare : Bare entryForm.name.describe ∧ Bare "id" := by decide
  obtain ⟨form, named⟩ := bare
  exact (members_fails (fun _ => id) form read).bind fun _ =>
    (required_fails named string_fails).bind fun _ =>
      (optional_fails datum_fails).bind fun _ =>
        (optional_fails boolean_fails).bind fun _ => .ok _

/-! ## Types that are not known -/

/-- What the type of an element says that names no kind: the name stands alone or as the
only key of an object. -/
inductive NamesNoKind : Json → String → Prop where
  | plain {name : String} (h : ElementKind.ofName? name = none) : NamesNoKind (.string name) name
  | keyed {name : String} {v : Json} (h : ElementKind.ofName? name = none) :
      NamesNoKind (.object [(name, v)]) name

theorem kind_ofName_error {name : String} {e : ShapeError} :
    kind.ofName name = .error e ↔ e = .unknownKind name ∧ ElementKind.ofName? name = none := by
  unfold kind.ofName
  split
  · rename_i k hk
    simp [hk]
  · rename_i hk
    simp [hk, eq_comm]

theorem NamesNoKind.error {w : Json} {name : String} (h : NamesNoKind w name) :
    kind w = .error (.unknownKind name) := by
  cases h with
  | plain h => exact kind_ofName_error.2 ⟨rfl, h⟩
  | keyed h =>
    unfold kind
    dsimp only
    rw [kind_ofName_error.2 ⟨rfl, h⟩]
    rfl

theorem kind_fails (w : Json) :
    FailsWith (fun e => e.Plain ∨ ∃ name, e = .unknownKind name ∧ NamesNoKind w name) (kind w) := by
  have unit : Bare Expectation.unit.describe := by decide
  have wanted : Bare Expectation.kind.describe := by decide
  intro e h
  unfold kind at h
  split at h
  · obtain ⟨rfl, none⟩ := kind_ofName_error.1 h
    exact .inr ⟨_, rfl, .plain none⟩
  · rcases bind_error h with h | ⟨k, -, h⟩
    · obtain ⟨rfl, none⟩ := kind_ofName_error.1 h
      exact .inr ⟨_, rfl, .keyed none⟩
    · split at h <;> cases h
      exact .inl unit
  · cases h
    exact .inl trivial
  · cases h
    exact .inl wanted

def typeField : Field := field "type" .required kind

def UnnamedKind (v : Json) (name : String) : Prop :=
  ∃ w, ReadUpTo elementForm v typeField w ∧ NamesNoKind w name

theorem UnnamedKind.error {v : Json} {name : String} (h : UnnamedKind v name) :
    element v = .error (.unknownKind name) := by
  obtain ⟨w, upTo, hw⟩ := h
  have failed : typeField.check w = .error (.unknownKind name) := by
    change (kind w).map _ = _
    rw [hw.error]
    rfl
  unfold element
  rw [upTo.members_error failed]
  rfl

theorem pairItems_checked {count : Nat} {fields : List Field} {items : List Json} {ms : Members}
    (h : pairItems form count fields items = .ok ms) :
    ∀ m ∈ ms, ∃ f ∈ fields, f.name = m.1 ∧ f.check m.2 = .ok () := by
  induction fields generalizing count items ms with
  | nil =>
    cases items <;> cases h
    exact List.forall_mem_nil _
  | cons f fields ih =>
    have later {count : Nat} {items : List Json} {ms : Members}
        (h : pairItems form count fields items = .ok ms) :
        ∀ m ∈ ms, ∃ g ∈ f :: fields, g.name = m.1 ∧ g.check m.2 = .ok () := by
      intro m hm
      obtain ⟨g, hg, read⟩ := ih h m hm
      exact ⟨g, List.mem_cons_of_mem f hg, read⟩
    cases items with
    | nil =>
      unfold pairItems at h
      split at h
      · exact later h
      · cases h
    | cons w rest =>
      unfold pairItems at h
      obtain ⟨_, hw, h⟩ := bind_ok h
      obtain ⟨read, hr, h⟩ := bind_ok h
      cases h
      exact List.forall_mem_cons.2 ⟨⟨f, List.mem_cons_self, rfl, hw⟩, later hr⟩

/-- What a record has for a field that is the only one of its name has been checked. -/
theorem passes_of_members {ms : Members} (h : form.members v = .ok ms) (hf : f ∈ form.fields)
    (only : ∀ g ∈ form.fields, g.name = f.name → g = f) : Passes ms f := by
  unfold Form.members at h
  split at h
  · obtain ⟨_, checked, rfl⟩ := map_ok h
    refine passes_of_checkMembers checked ?_
    cases hg : form.fields.find? (·.name == f.name) with
    | none => exact absurd (List.find?_eq_none.1 hg f hf) (by simp)
    | some g =>
      have same := List.find?_some hg
      rw [beq_iff_eq] at same
      rw [only g (List.mem_of_find?_eq_some hg) same]
  · intro w hw
    obtain ⟨g, hg, same, read⟩ := pairItems_checked h _ (mem_of_lookup hw)
    exact only g hg same ▸ read
  · cases h

theorem element_fails (v : Json) : FailsWith
    (fun e => e.Plain ∨ ∃ name, e = .unknownKind name ∧ UnnamedKind v name) (element v) := by
  have options := fun v => nullable_fails v fun v => sequence_fails v datum_fails fun _ => id
  have rules := fun v => dictionary_fails v string_fails fun _ => id
  have read : ∀ f ∈ elementForm.fields,
      f = typeField ∨ ∀ v, FailsWith ShapeError.Plain (f.check v) := by
    simp only [elementForm, List.forall_mem_cons]
    exact ⟨.inr fun v => (string_fails v).map, .inl rfl, .inr fun v => (point_fails v).map,
      .inr fun v => (size_fails v).map, .inr fun v => (options v).map,
      .inr fun v => (rules v).map, List.forall_mem_nil _⟩
  have bare : Bare elementForm.name.describe ∧ Bare "id" ∧ Bare "type" ∧ Bare "position" ∧
      Bare "size" := by
    decide
  obtain ⟨form, named, typed, placed, sized⟩ := bare
  intro e h
  rcases bind_error h with h | ⟨ms, hms, h⟩
  · rcases members_error form h with plain | ⟨f, w, upTo, hw⟩
    · exact .inl plain
    · rcases read f upTo.field_mem with rfl | plain
      · refine (kind_fails w e (map_error hw)).imp_right ?_
        rintro ⟨name, rfl, none⟩
        exact ⟨name, rfl, w, upTo, none⟩
      · exact .inl (plain w e hw)
  · have passes : Passes ms typeField :=
      passes_of_members hms (.tail _ (.head _)) (by simp [elementForm, field, typeField])
    have kinds : FailsWith ShapeError.Plain (required ms "type" kind) := by
      rcases required_of_passes passes with ⟨-, missing⟩ | ⟨_, _, -, read⟩
      · rw [missing]
        exact .error typed
      · rw [read]
        exact .ok _
    refine .inl ((?_ : FailsWith ShapeError.Plain _) e h)
    exact (required_fails named string_fails).bind fun _ => kinds.bind fun _ =>
      (required_fails placed point_fails).bind fun _ =>
        (required_fails sized size_fails).bind fun _ =>
          (optional_fails fun v => sequence_fails v datum_fails fun _ => id).bind fun _ =>
            (withDefault_fails rules []).bind fun _ => .ok _

def elementsField : Field := field "elements" .required (sequence element)

def UnnamedType (ms : Members) (name : String) : Prop :=
  ∃ good v rest, ReadUpTo sheetForm (.object ms) elementsField (.array (good ++ v :: rest)) ∧
    (∀ w ∈ good, ∃ x, element w = .ok x) ∧ UnnamedKind v name

theorem UnnamedType.failure {ms : Members} {name : String} (h : UnnamedType ms name) :
    ∃ part, Failure ms part (.unknownKind name) := by
  obtain ⟨good, v, rest, upTo, hgood, hv⟩ := h
  have failed : elementsField.check (.array (good ++ v :: rest)) = .error (.unknownKind name) :=
    congrArg (Except.map fun _ => ()) <| sequence_error_iff.2
      ⟨_, badItem_iff.2 ⟨good, v, rest, rfl, rfl, hgood, hv.error⟩⟩
  refine sheet_error_iff.1 ?_
  unfold sheet
  rw [upTo.members_error failed]
  rfl

/-- Nothing but the type of an element is reported as not known. -/
theorem failure_cases {ms : Members} {part : Option Nat} {e : ShapeError}
    (h : Failure ms part e) : e.Plain ∨ ∃ name, e = .unknownKind name ∧ UnnamedType ms name := by
  have ruleSets := fun v => nullable_fails v fun v => sequence_fails v ruleSet_fails fun _ => id
  have resources : ∀ v, FailsWith ShapeError.Plain (nullable (sequence .ok) v) :=
    fun v => nullable_fails v fun v => sequence_fails v (fun _ => .ok _) fun _ => id
  have read : ∀ f ∈ sheetForm.fields,
      Bare f.name ∧ (f = elementsField ∨ ∀ v, FailsWith ShapeError.Plain (f.check v)) := by
    simp only [sheetForm, List.forall_mem_cons]
    exact ⟨⟨by decide, .inr fun v => (string_fails v).map⟩,
      ⟨by decide, .inr fun v => (version_fails v).map⟩,
      ⟨by decide, .inr fun v => (ruleSets v).map⟩, ⟨by decide, .inl rfl⟩,
      ⟨by decide, .inr fun v => (resources v).map⟩, List.forall_mem_nil _⟩
  cases h with
  | missing _ hf => exact .inl (read _ (List.mem_of_find?_eq_some hf)).1
  | member h =>
    obtain ⟨before, key, w, behind, f, rfl, readable, hf, he⟩ := checkMembers_error h.error
    have upTo : ReadUpTo sheetForm (.object (before ++ (key, w) :: behind)) f w :=
      .member readable hf
    rcases (read f upTo.field_mem).2 with rfl | plain
    · have he := map_error he
      unfold sequence at he
      split at he
      · obtain ⟨i, hi⟩ := mapM_error_iff.1 he
        obtain ⟨good, v, rest, rfl, -, hgood, hv⟩ := badItem_iff.1 hi
        refine (element_fails v e hv).imp_right ?_
        rintro ⟨name, rfl, unnamed⟩
        exact ⟨name, rfl, good, v, rest, upTo, hgood, unnamed⟩
      · cases he
        have bare : Bare Expectation.sequence.describe := by decide
        exact .inl bare
    · exact .inl (plain w e he)

/-! ## Classes -/

def Unreadable (text : String) : Prop :=
  isBlankText text = true ∨ ∃ e, Json.parse text = .error e

def SheetFault (text : String) (e : ShapeError) : Prop :=
  ∃ ms part, parseJson text = .ok (.object ms) ∧ Failure ms part e

def StatesFault (text : String) (e : ShapeError) : Prop :=
  ∃ items i, parseJson text = .ok (.array items) ∧ BadItem entry items i e

def UnknownType (text : String) : Prop :=
  ∃ ms name, parseJson text = .ok (.object ms) ∧ UnnamedType ms name

def rejectedAs {α : Type} : Except ParseError α → Option ErrorClass
  | .ok _ => none
  | .error err => some err.errorClass

/-- Which texts a reader rejects with which class: those that are no document, those in
which a type is unknown and those with another fault, except that a fault can have a message
that misleads. -/
structure Classes {α : Type} (read : Except ParseError α) (unreadable unknown : Prop)
    (fault : ShapeError → Prop) : Prop where
  syntaxError : rejectedAs read = some .syntaxError ↔
    unreadable ∨ ∃ e, fault e ∧ e.Unnoticed
  unknownVariant : rejectedAs read = some .unknownVariant ↔
    unknown ∨ ∃ e, fault e ∧ e.Misquoted
  typeMismatch : rejectedAs read = some .typeMismatch ↔
    (∃ err, read = .error err) ∧ ¬ unreadable ∧ ¬ unknown ∧
      ∀ e, fault e → ¬ e.Unnoticed ∧ ¬ e.Misquoted

section Classes
variable {read : Except ParseError α} {unreadable unknown : Prop} {fault : ShapeError → Prop}

theorem Classes.of_ok {x : α} (ok : read = .ok x) (readable : ¬ unreadable)
    (known : ¬ unknown) (none : ∀ e, ¬ fault e) : Classes read unreadable unknown fault := by
  subst ok
  constructor <;> simp [rejectedAs, readable, known, none]

theorem Classes.of_unreadable {err : ParseError} (rejected : read = .error err)
    (hc : err.errorClass = .syntaxError) (h : unreadable) (known : ¬ unknown)
    (none : ∀ e, ¬ fault e) : Classes read unreadable unknown fault := by
  subst rejected
  constructor <;> simp [rejectedAs, hc, h, known, none]

theorem Classes.of_root {err : ParseError} (rejected : read = .error err)
    (hc : err.errorClass = .typeMismatch) (readable : ¬ unreadable) (known : ¬ unknown)
    (none : ∀ e, ¬ fault e) : Classes read unreadable unknown fault := by
  subst rejected
  constructor <;> simp [rejectedAs, hc, readable, known, none]

/-- A document is rejected with its fault. -/
theorem Classes.of_document {x : Except ShapeError α} {path : Option String}
    (parsed : read = x.mapError fun e => .misshapen e path) (readable : ¬ unreadable)
    (fault_iff : ∀ e, fault e ↔ x = .error e)
    (known : unknown → ∃ name, x = .error (.unknownKind name))
    (cause : ∀ e, x = .error e → e.Plain ∨ (∃ name, e = .unknownKind name) ∧ unknown) :
    Classes read unreadable unknown fault := by
  subst parsed
  cases x with
  | ok a =>
    refine .of_ok rfl readable (fun h => ?_) fun e h => nomatch (fault_iff e).1 h
    obtain ⟨name, h⟩ := known h
    cases h
  | error e =>
    have only (e' : ShapeError) : fault e' ↔ e' = e := by
      rw [fault_iff, Except.error.injEq, eq_comm]
    have hc : (ParseError.misshapen e path).errorClass = classify e.message := rfl
    rcases cause e rfl with plain | ⟨⟨name, rfl⟩, h⟩
    · have other : ¬ unknown := by
        intro h
        obtain ⟨name, h⟩ := known h
        cases h
        exact plain
      obtain ⟨unnoticed, misquoted, noticed⟩ := classify_message plain
      constructor <;>
        simp [rejectedAs, Except.mapError, hc, readable, other, only, unnoticed, misquoted, noticed]
    · rw [classify_unknownKind] at hc
      constructor <;>
        simp [rejectedAs, Except.mapError, hc, readable, h, only, ShapeError.Unnoticed]

end Classes

theorem parseJson_cases (text : String) :
    (∃ err, parseJson text = .error err ∧ err.errorClass = .syntaxError ∧ Unreadable text) ∨
      ∃ v, parseJson text = .ok v ∧ ¬ Unreadable text := by
  unfold parseJson Unreadable
  split
  · rename_i blank
    exact .inl ⟨_, rfl, rfl, .inl blank⟩
  · rename_i written
    cases Json.parse text with
    | error e => exact .inl ⟨_, rfl, rfl, .inr ⟨e, rfl⟩⟩
    | ok v => exact .inr ⟨v, rfl, by simp [written]⟩

/-! ## Sheets and saved states -/

section Documents
variable {text : String} {ms : Members} {items : List Json}

theorem sheetFault_iff (read : parseJson text = .ok (.object ms)) (e : ShapeError) :
    SheetFault text e ↔ sheet (.object ms) = .error e := by
  rw [sheet_error_iff]
  constructor
  · rintro ⟨_, part, object, h⟩
    cases read.symm.trans object
    exact ⟨part, h⟩
  · rintro ⟨part, h⟩
    exact ⟨ms, part, read, h⟩

theorem unknownType_iff (read : parseJson text = .ok (.object ms)) :
    UnknownType text ↔ ∃ name, UnnamedType ms name := by
  constructor
  · rintro ⟨_, name, object, h⟩
    cases read.symm.trans object
    exact ⟨name, h⟩
  · rintro ⟨name, h⟩
    exact ⟨ms, name, read, h⟩

theorem statesFault_iff (read : parseJson text = .ok (.array items)) (e : ShapeError) :
    StatesFault text e ↔ items.mapM entry = .error e := by
  rw [mapM_error_iff]
  constructor
  · rintro ⟨_, i, list, h⟩
    cases read.symm.trans list
    exact ⟨i, h⟩
  · rintro ⟨i, h⟩
    exact ⟨items, i, read, h⟩

theorem sheet_classes (read : parseJson text = .ok (.object ms)) (readable : ¬ Unreadable text) :
    Classes (parseSheet text) (Unreadable text) (UnknownType text) (SheetFault text) := by
  have parsed : parseSheet text = sheetOf (.object ms) := by
    unfold parseSheet
    rw [read]
    rfl
  refine .of_document parsed readable (sheetFault_iff read) (fun unknown => ?_) fun e failed => ?_
  · obtain ⟨name, unnamed⟩ := (unknownType_iff read).1 unknown
    exact ⟨name, sheet_error_iff.2 unnamed.failure⟩
  · obtain ⟨part, h⟩ := sheet_error_iff.1 failed
    refine (failure_cases h).imp_right ?_
    rintro ⟨name, rfl, unnamed⟩
    exact ⟨⟨name, rfl⟩, (unknownType_iff read).2 ⟨name, unnamed⟩⟩

theorem states_classes (read : parseJson text = .ok (.array items)) (readable : ¬ Unreadable text) :
    Classes (parseStates text) (Unreadable text) False (StatesFault text) := by
  have parsed : parseStates text = (items.mapM entry).mapError fun e => .misshapen e none := by
    unfold parseStates
    rw [read]
    rfl
  refine .of_document parsed readable (statesFault_iff read) False.elim fun e failed => ?_
  exact .inl (FailsWith.mapM entry_fails items e failed)

end Documents

theorem parseSheet_classes (text : String) :
    Classes (parseSheet text) (Unreadable text) (UnknownType text) (SheetFault text) := by
  -- a text without an object has neither a fault nor an unknown type
  have without (no_object : ∀ ms, parseJson text ≠ .ok (.object ms)) :
      ¬ UnknownType text ∧ ∀ e, ¬ SheetFault text e :=
    ⟨fun ⟨ms, _, read, _⟩ => no_object ms read, fun _ ⟨ms, _, read, _⟩ => no_object ms read⟩
  rcases parseJson_cases text with ⟨err, failed, hc, unreadable⟩ | ⟨v, read, readable⟩
  · obtain ⟨known, none⟩ := without fun ms read => nomatch failed.symm.trans read
    have rejected : parseSheet text = .error err := by
      unfold parseSheet
      rw [failed]
      rfl
    exact .of_unreadable rejected hc unreadable known none
  · by_cases object : ∃ ms, v = .object ms
    · obtain ⟨ms, rfl⟩ := object
      exact sheet_classes read readable
    · obtain ⟨known, none⟩ := without fun ms h => object ⟨ms, Except.ok.inj (read.symm.trans h)⟩
      have rejected : parseSheet text = .error .notObject := by
        unfold parseSheet
        rw [read]
        cases v with
        | object ms => exact absurd ⟨ms, rfl⟩ object
        | _ => rfl
      exact .of_root rejected rfl readable known none

theorem parseStates_classes (text : String) :
    Classes (parseStates text) (Unreadable text) False (StatesFault text) := by
  rcases parseJson_cases text with ⟨err, failed, hc, unreadable⟩ | ⟨v, read, readable⟩
  · have rejected : parseStates text = .error err := by
      unfold parseStates
      rw [failed]
      rfl
    refine .of_unreadable rejected hc unreadable id ?_
    rintro _ ⟨_, _, read, -⟩
    cases failed.symm.trans read
  · by_cases list : ∃ items, v = .array items
    · obtain ⟨items, rfl⟩ := list
      exact states_classes read readable
    · have rejected : parseStates text = .error .notList := by
        unfold parseStates
        rw [read]
        cases v with
        | array items => exact absurd ⟨items, rfl⟩ list
        | _ => rfl
      refine .of_root rejected rfl readable id ?_
      rintro _ ⟨items, _, h, -⟩
      exact list ⟨items, Except.ok.inj (read.symm.trans h)⟩

/-- The class of an error is that of its cause, for sheets and for saved states, except
that the message of a fault is misread in two ways: it quotes the words for an unknown name,
or it names a list, an object or `null` in place of a datum with none of the words. -/
theorem rejectedAs_cause (text : String) :
    Classes (parseSheet text) (Unreadable text) (UnknownType text) (SheetFault text) ∧
      Classes (parseStates text) (Unreadable text) False (StatesFault text) :=
  ⟨parseSheet_classes text, parseStates_classes text⟩

/-- A list in place of a datum is reported as a syntax error of a text that is JSON, and with
the right words in it as an unknown name of a saved state, which has no types. -/
theorem rejectedAs_list_value :
    ¬ Unreadable "[\x7b\"id\":\"a\",\"value\":[]\x7d]" ∧
      rejectedAs (parseStates "[\x7b\"id\":\"a\",\"value\":[]\x7d]") = some .syntaxError ∧
        rejectedAs (parseStates "[\x7b\"id\":\"a\",\"value\":[\"Unknown Variant\"]\x7d]") =
          some .unknownVariant := by
  have readable : (parseJson "[\x7b\"id\":\"a\",\"value\":[]\x7d]").isOk = true := by decide +kernel
  refine ⟨fun unreadable => ?_, by decide +kernel, by decide +kernel⟩
  rcases parseJson_cases "[\x7b\"id\":\"a\",\"value\":[]\x7d]" with ⟨err, failed, -⟩ | ⟨v, -, read⟩
  · rw [failed] at readable
    cases readable
  · exact read unreadable

end ScoreSheet.Document
