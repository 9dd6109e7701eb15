import ScoreSheet.Proofs.Document.Decoded
set_option autoImplicit false

/-! The members of a sheet are read in the order of the document and the items of a list in
theirs. The error is that of the first one that cannot be read; a sheet that lacks a field
is reported only when all its members can be read. The path of an error is found by going
through the elements once more, whatever the error is about. -/
namespace ScoreSheet.Document

def elementPath (i : Nat) : String := s!"elements[{i}]"

theorem elementPath_inj {i j : Nat} : elementPath i = elementPath j ↔ i = j := by
  refine ⟨fun h => ?_, congrArg elementPath⟩
  have digits : Nat.toDigits 10 i = Nat.toDigits 10 j := by
    simpa [elementPath, toString, Nat.repr] using congrArg String.toList h
  rw [← Nat.ofDigitChars_ten_toDigits (n := i), digits, Nat.ofDigitChars_ten_toDigits]

/-! ## Failing parts -/

inductive BadItem {α : Type} (decode : Decoder α) : List Json → Nat → ShapeError → Prop where
  | here {v : Json} {rest : List Json} {e : ShapeError} (h : decode v = .error e) :
      BadItem decode (v :: rest) 0 e
  | behind {v : Json} {rest : List Json} {x : α} {i : Nat} {e : ShapeError}
      (hv : decode v = .ok x) (h : BadItem decode rest i e) : BadItem decode (v :: rest) (i + 1) e

/-- The first member that cannot be read fails with the error. The part is the index of an
element, if that is what fails. -/
inductive BadMember : Members → Option Nat → ShapeError → Prop where
  | element {items : List Json} {rest : Members} {i : Nat} {e : ShapeError}
      (h : BadItem element items i e) : BadMember (("elements", .array items) :: rest) (some i) e
  | member {key : String} {v : Json} {rest : Members} {f : Field} {e : ShapeError}
      (hf : sheetForm.fields.find? (·.name == key) = some f) (he : f.check v = .error e)
      (other : key = "elements" → ∀ items, v ≠ .array items) :
      BadMember ((key, v) :: rest) none e
  | behind {m : String × Json} {rest : Members} {part : Option Nat} {e : ShapeError}
      (hm : checkMembers sheetForm.fields [m] = .ok ()) (h : BadMember rest part e) :
      BadMember (m :: rest) part e

def Form.missing? (form : Form) (ms : Members) : Option Field :=
  form.fields.find? fun f => decide (f.presence = .required) && (ms.lookup f.name).isNone

inductive Failure (ms : Members) : Option Nat → ShapeError → Prop where
  | member {part : Option Nat} {e : ShapeError} (h : BadMember ms part e) : Failure ms part e
  | missing {f : Field} (checked : checkMembers sheetForm.fields ms = .ok ())
      (hf : sheetForm.missing? ms = some f) : Failure ms none (.missing f.name)

/-! ## Items -/

section Items
variable {α : Type} {decode : Decoder α} {items : List Json} {i j : Nat} {e e' : ShapeError}

theorem mapM_error_iff : items.mapM decode = .error e ↔ ∃ i, BadItem decode items i e := by
  induction items with
  | nil =>
    constructor
    · intro h
      cases h
    · rintro ⟨_, ⟨⟩⟩
  | cons v rest ih =>
    rw [List.mapM_cons]
    constructor
    · intro h
      rcases bind_error h with hv | ⟨x, hv, h⟩
      · exact ⟨0, .here hv⟩
      · rcases bind_error h with hr | ⟨_, -, h⟩
        · obtain ⟨i, hi⟩ := ih.1 hr
          exact ⟨i + 1, .behind hv hi⟩
        · cases h
    · rintro ⟨_, hv | ⟨hv, h⟩⟩
      · rw [hv]
        rfl
      · rw [hv, ih.2 ⟨_, h⟩]
        rfl

theorem sequence_error_iff :
    sequence decode (.array items) = .error e ↔ ∃ i, BadItem decode items i e :=
  mapM_error_iff

theorem badItem_iff : BadItem decode items i e ↔ ∃ good v rest, items = good ++ v :: rest ∧
    good.length = i ∧ (∀ w ∈ good, ∃ x, decode w = .ok x) ∧ decode v = .error e := by
  constructor
  · intro h
    induction h with
    | here hv => exact ⟨[], _, _, rfl, rfl, List.forall_mem_nil _, hv⟩
    | behind hv _ ih =>
      obtain ⟨good, v, rest, rfl, rfl, hgood, he⟩ := ih
      exact ⟨_ :: good, v, rest, rfl, rfl, List.forall_mem_cons.2 ⟨⟨_, hv⟩, hgood⟩, he⟩
  · rintro ⟨good, v, rest, rfl, rfl, hgood, he⟩
    induction good with
    | nil => exact .here he
    | cons w good ih =>
      obtain ⟨⟨x, hx⟩, hgood⟩ := List.forall_mem_cons.1 hgood
      exact .behind hx (ih hgood)

theorem BadItem.index_unique (h : BadItem decode items i e) (h' : BadItem decode items j e') :
    i = j := by
  induction h generalizing j with
  | here hv =>
    cases h' with
    | here => rfl
    | behind hv' => exact absurd (hv.symm.trans hv') (fun h => nomatch h)
  | behind hv _ ih =>
    cases h' with
    | here hv' => exact absurd (hv.symm.trans hv') (fun h => nomatch h)
    | behind _ h' => rw [ih h']

theorem BadItem.firstBad (h : BadItem decode items i e) (n : Nat) :
    firstBad? decode n items = some (n + i) := by
  induction h generalizing n with
  | here hv =>
    rw [firstBad?, hv]
    rfl
  | behind hv _ ih =>
    rw [firstBad?, hv]
    exact (ih (n + 1)).trans (congrArg some (by omega))

theorem firstBad?_eq_none {n : Nat} :
    firstBad? decode n items = none ↔ ∀ v ∈ items, ∃ x, decode v = .ok x := by
  induction items generalizing n with
  | nil => simp [firstBad?]
  | cons v rest ih =>
    rw [firstBad?, List.forall_mem_cons]
    cases hv : decode v with
    | error e => simp [Except.isOk, Except.toBool]
    | ok x => simp [Except.isOk, Except.toBool, ih]

end Items

/-! ## Members -/

theorem checkMembers_cons (fields : List Field) (m : String × Json) (rest : Members) :
    checkMembers fields (m :: rest) =
      checkMembers fields [m] >>= fun _ => checkMembers fields rest := by
  obtain ⟨key, v⟩ := m
  rw [checkMembers, checkMembers]
  cases fields.find? (·.name == key) with
  | none => rfl
  | some f =>
    dsimp only
    cases f.check v <;> rfl

theorem checkMembers_single {fields : List Field} {key : String} {v : Json} {e : ShapeError} :
    checkMembers fields [(key, v)] = .error e ↔
      ∃ f, fields.find? (·.name == key) = some f ∧ f.check v = .error e := by
  rw [checkMembers]
  cases fields.find? (·.name == key) with
  | none => simp [checkMembers, bind, Except.bind]
  | some f => cases hv : f.check v <;> simp [checkMembers, bind, Except.bind, hv]

/-- A member that cannot be read has an element that cannot, or it is no list of elements. -/
theorem badMember_single {m : String × Json} {e : ShapeError}
    (h : checkMembers sheetForm.fields [m] = .error e) (rest : Members) :
    ∃ part, BadMember (m :: rest) part e := by
  obtain ⟨key, v⟩ := m
  obtain ⟨f, hf, he⟩ := checkMembers_single.1 h
  by_cases listed : key = "elements" ∧ ∃ items, v = .array items
  · obtain ⟨rfl, items, rfl⟩ := listed
    cases hf
    obtain ⟨i, hi⟩ := sequence_error_iff.1 (map_error he)
    exact ⟨some i, .element hi⟩
  · exact ⟨none, .member hf he fun hk items hv => listed ⟨hk, items, hv⟩⟩

theorem BadItem.check {items : List Json} {i : Nat} {e : ShapeError}
    (h : BadItem element items i e) :
    checkMembers sheetForm.fields [("elements", .array items)] = .error e :=
  checkMembers_single.2
    ⟨_, rfl, congrArg (Except.map fun _ => ()) (sequence_error_iff.2 ⟨i, h⟩)⟩

theorem BadMember.error {ms : Members} {part : Option Nat} {e : ShapeError}
    (h : BadMember ms part e) : checkMembers sheetForm.fields ms = .error e := by
  induction h with
  | element hi =>
    rw [checkMembers_cons, hi.check]
    rfl
  | member hf he =>
    rw [checkMembers_cons, checkMembers_single.2 ⟨_, hf, he⟩]
    rfl
  | behind hm _ ih =>
    rw [checkMembers_cons, hm]
    exact ih

theorem badMember_of_error {ms : Members} {e : ShapeError}
    (h : checkMembers sheetForm.fields ms = .error e) : ∃ part, BadMember ms part e := by
  induction ms with
  | nil => cases h
  | cons m rest ih =>
    rw [checkMembers_cons] at h
    rcases bind_error h with hm | ⟨_, hm, hr⟩
    · exact badMember_single hm rest
    · obtain ⟨part, hp⟩ := ih hr
      exact ⟨part, .behind hm hp⟩

theorem BadMember.part_unique {ms : Members} {part part' : Option Nat} {e e' : ShapeError}
    (h : BadMember ms part e) (h' : BadMember ms part' e') : part = part' := by
  have one_fails {m : String × Json} {e : ShapeError} {p : Prop}
      (bad : checkMembers sheetForm.fields [m] = .error e)
      (good : checkMembers sheetForm.fields [m] = .ok ()) : p := by
    rw [bad] at good
    cases good
  induction h with
  | element hi =>
    cases h' with
    | element hi' => exact congrArg some (hi.index_unique hi')
    | member _ _ other => exact absurd rfl (other rfl _)
    | behind hm => exact one_fails hi.check hm
  | member hf he other =>
    cases h' with
    | element => exact absurd rfl (other rfl _)
    | member => rfl
    | behind hm => exact one_fails (checkMembers_single.2 ⟨_, hf, he⟩) hm
  | behind hm _ ih =>
    cases h' with
    | element hi => exact one_fails hi.check hm
    | member hf he => exact one_fails (checkMembers_single.2 ⟨_, hf, he⟩) hm
    | behind _ h' => exact ih h'

theorem badItem_of_badMember {ms : Members} {i : Nat} {e : ShapeError}
    (h : BadMember ms (some i) e) :
    ∃ items, ("elements", .array items) ∈ ms ∧ BadItem element items i e := by
  generalize hp : some i = part at h
  induction h with
  | element hi =>
    cases hp
    exact ⟨_, List.mem_cons_self, hi⟩
  | member => cases hp
  | behind _ _ ih =>
    obtain ⟨items, hm, hi⟩ := ih hp
    exact ⟨items, List.mem_cons_of_mem _ hm, hi⟩

/-! ## Fields -/

theorem passes_of_checkMembers {fields : List Field} {ms : Members} {f : Field}
    (h : checkMembers fields ms = .ok ()) (hf : fields.find? (·.name == f.name) = some f) :
    Passes ms f := by
  induction ms with
  | nil => exact fun v hv => nomatch hv
  | cons m rest ih =>
    obtain ⟨key, v⟩ := m
    rw [checkMembers_cons] at h
    obtain ⟨_, hm, hr⟩ := bind_ok h
    intro w hw
    rw [List.lookup_cons] at hw
    split at hw
    · rename_i same
      cases hw
      rw [checkMembers, ← eq_of_beq same, hf] at hm
      obtain ⟨_, hv, -⟩ := bind_ok hm
      exact hv
    · exact ih hr w hw

theorem required_of_passes {α : Type} {ms : Members} {name : String} {presence : Presence}
    {decode : Decoder α} (h : Passes ms (field name presence decode)) :
    (ms.lookup name = none ∧ required ms name decode = .error (.missing name)) ∨
      ∃ v x, ms.lookup name = some v ∧ required ms name decode = .ok x := by
  unfold required
  cases hl : ms.lookup name with
  | none => exact .inl ⟨rfl, rfl⟩
  | some v =>
    obtain ⟨x, hx, -⟩ := map_ok (h v hl)
    exact .inr ⟨v, x, rfl, hx⟩

theorem optional_of_passes {α : Type} {ms : Members} {name : String} {presence : Presence}
    {decode : Decoder α} (h : Passes ms (field name presence (nullable decode))) :
    ∃ x, optional ms name decode = .ok x := by
  unfold optional
  cases hl : ms.lookup name with
  | none => exact ⟨none, rfl⟩
  | some v =>
    obtain ⟨x, hx, -⟩ := map_ok (h v hl)
    exact ⟨x, hx⟩

/-- What is missing is all that can be wrong once the members have been checked. -/
theorem sheet_checked {ms : Members} (h : checkMembers sheetForm.fields ms = .ok ()) :
    match sheetForm.missing? ms with
    | some f => sheet (.object ms) = .error (.missing f.name)
    | none => ∃ s, sheet (.object ms) = .ok s := by
  have members : sheetForm.members (.object ms) = .ok ms := by
    unfold Form.members
    dsimp only
    rw [h]
    rfl
  obtain ⟨ruleSets, hrs⟩ := optional_of_passes (passes_of_checkMembers h
    (f := field "ruleSets" .optional (nullable (sequence ruleSet))) rfl)
  obtain ⟨resources, hres⟩ := optional_of_passes (passes_of_checkMembers h
    (f := field "res" .optional (nullable (sequence .ok))) rfl)
  have hname := required_of_passes (passes_of_checkMembers h
    (f := field "name" .required string) rfl)
  have hversion := required_of_passes (passes_of_checkMembers h
    (f := field "version" .required version) rfl)
  have helements := required_of_passes (passes_of_checkMembers h
    (f := field "elements" .required (sequence element)) rfl)
  unfold sheet
  rw [members]
  unfold Form.missing? sheetForm field
  dsimp only [bind, Except.bind]
  rcases hname with ⟨no_name, missing⟩ | ⟨_, _, some_name, read_name⟩
  · simp [no_name, missing]
  rcases hversion with ⟨no_version, missing⟩ | ⟨_, _, some_version, read_version⟩
  · simp [some_name, read_name, no_version, missing]
  rcases helements with ⟨no_elements, missing⟩ | ⟨_, _, some_elements, read_elements⟩
  · simp [some_name, read_name, some_version, read_version, hrs, no_elements, missing]
  · simp [some_name, read_name, some_version, read_version, hrs, some_elements, read_elements,
      hres]

theorem sheet_error_iff {ms : Members} {e : ShapeError} :
    sheet (.object ms) = .error e ↔ ∃ part, Failure ms part e := by
  cases checked : checkMembers sheetForm.fields ms with
  | error e' =>
    have failed : sheet (.object ms) = .error e' := by
      unfold sheet Form.members
      dsimp only
      rw [checked]
      rfl
    rw [failed]
    constructor
    · rintro ⟨⟩
      obtain ⟨part, hp⟩ := badMember_of_error checked
      exact ⟨part, .member hp⟩
    · rintro ⟨part, hp | ⟨checked', -⟩⟩
      · rw [hp.error] at checked
        cases checked
        rfl
      · rw [checked] at checked'
        cases checked'
  | ok _ =>
    have rest := sheet_checked checked
    constructor
    · intro h
      split at rest
      · rename_i f hf
        rw [h] at rest
        cases rest
        exact ⟨none, .missing checked hf⟩
      · obtain ⟨s, hs⟩ := rest
        rw [h] at hs
        cases hs
    · rintro ⟨part, hp | ⟨-, hf⟩⟩
      · rw [hp.error] at checked
        cases checked
      · rw [hf] at rest
        exact rest

theorem Failure.unique {ms : Members} {part part' : Option Nat} {e e' : ShapeError}
    (h : Failure ms part e) (h' : Failure ms part' e') : part' = part ∧ e' = e := by
  have same : Except.error e = Except.error e' :=
    (sheet_error_iff.2 ⟨part, h⟩).symm.trans (sheet_error_iff.2 ⟨part', h'⟩)
  refine ⟨?_, (Except.error.inj same).symm⟩
  cases h with
  | member h =>
    cases h' with
    | member h' => exact h'.part_unique h
    | missing checked =>
      rw [h.error] at checked
      cases checked
  | missing checked =>
    cases h' with
    | member h' =>
      rw [h'.error] at checked
      cases checked
    | missing => rfl

/-! ## Paths -/

/-- Every item of the list of elements, if the document has one, is an element. -/
def ElementsReadable (ms : Members) : Prop :=
  ∀ items, ms.lookup "elements" = some (.array items) → ∀ v ∈ items, ∃ x, element v = .ok x

theorem badElementPath?_of_element {ms : Members} (distinct : (ms.map Prod.fst).Nodup) {i : Nat}
    {e : ShapeError} (h : Failure ms (some i) e) :
    badElementPath? (.object ms) = some (elementPath i) := by
  cases h with
  | member h =>
    obtain ⟨items, hm, hi⟩ := badItem_of_badMember h
    have listed : ms.lookup "elements" = some (.array items) := lookup_of_mem distinct hm
    unfold badElementPath? Json.member?
    dsimp only
    rw [listed]
    dsimp only
    rw [hi.firstBad 0, Nat.zero_add]
    rfl

theorem badElementPath?_eq_none {ms : Members} :
    badElementPath? (.object ms) = none ↔ ElementsReadable ms := by
  unfold badElementPath? Json.member? ElementsReadable
  dsimp only
  split
  · rename_i items hl
    rw [hl, Option.map_eq_none_iff, firstBad?_eq_none]
    simp
  · rename_i other
    exact iff_of_true rfl fun items hl => absurd hl (other items)

theorem exists_elementPath {ms : Members} {path : String}
    (h : badElementPath? (.object ms) = some path) : ∃ i, path = elementPath i := by
  unfold badElementPath? at h
  split at h
  · obtain ⟨i, -, rfl⟩ := Option.map_eq_some_iff.1 h
    exact ⟨i, rfl⟩
  · cases h

/-- The error of a rejected object is the one of its first failing part. Its path is the one
of an element if that part is in an element, and otherwise only if some element cannot be
read either, which is not what the message is about. -/
theorem parseSheet_path {text : String} {ms : Members} {err : ParseError}
    (object : parseJson text = .ok (.object ms)) (rejected : parseSheet text = .error err) :
    ∃ e part, err = .misshapen e err.path ∧ Failure ms part e ∧
      (∀ part' e', Failure ms part' e' → part' = part ∧ e' = e) ∧
      (∀ i, part = some i → err.path = some (elementPath i)) ∧
      ((∀ i, err.path = some (elementPath i) ↔ part = some i) ↔
        (part = none → ElementsReadable ms)) := by
  unfold parseSheet at rejected
  rw [object] at rejected
  obtain ⟨e, failed, rfl⟩ := mapError_error (x := sheet (.object ms)) rejected
  obtain ⟨part, h⟩ := sheet_error_iff.1 failed
  have distinct : (ms.map Prod.fst).Nodup := by
    cases Json.parse_fits (parseJson_eq_ok object) with
    | object distinct _ => exact distinct
  refine ⟨e, part, rfl, h, fun _ _ h' => h.unique h', ?_, ?_⟩
  · rintro i rfl
    exact badElementPath?_of_element distinct h
  · change (∀ i, badElementPath? (.object ms) = some (elementPath i) ↔ part = some i) ↔ _
    rw [← badElementPath?_eq_none]
    cases part with
    | some i =>
      rw [badElementPath?_of_element distinct h]
      simp [elementPath_inj]
    | none =>
      cases hp : badElementPath? (.object ms) with
      | none => simp
      | some path =>
        obtain ⟨i, rfl⟩ := exists_elementPath hp
        simp [elementPath_inj]

theorem parseSheet_of_failure {text : String} {ms : Members} {part : Option Nat} {e : ShapeError}
    (object : parseJson text = .ok (.object ms)) (h : Failure ms part e) :
    parseSheet text = .error (.misshapen e (badElementPath? (.object ms))) := by
  unfold parseSheet
  rw [object]
  change (sheet (.object ms)).mapError _ = _
  rw [sheet_error_iff.2 ⟨part, h⟩]
  rfl

def sliderText : String :=
  "\x7b\"name\":\"x\",\"version\":[1,0,0],\"elements\":[\x7b\"id\":\"a\",\"type\":\"slider\"\x7d]\x7d"

theorem parseSheet_path_slider : ∃ ms err, parseJson sliderText = .ok (.object ms) ∧
    parseSheet sliderText = .error err ∧ Failure ms (some 0) (.unknownKind "slider") ∧
      err.path = some (elementPath 0) := by
  have object : parseJson sliderText = .ok (.object [("name", .string "x"),
      ("version", .array [.integer 1, .integer 0, .integer 0]),
      ("elements", .array [.object [("id", .string "a"), ("type", .string "slider")]])]) := by
    rfl
  have slider : Failure [("name", .string "x"),
      ("version", .array [.integer 1, .integer 0, .integer 0]),
      ("elements", .array [.object [("id", .string "a"), ("type", .string "slider")]])]
      (some 0) (.unknownKind "slider") :=
    .member (.behind rfl (.behind rfl (.element (.here rfl))))
  have rejected := parseSheet_of_failure object slider
  obtain ⟨e, part, -, -, only, located, -⟩ := parseSheet_path object rejected
  exact ⟨_, _, object, rejected, slider, located 0 (only _ _ slider).1.symm⟩

/-- The name is no text and the only element lacks everything: the message is about the
name, the path about the element. -/
theorem parseSheet_path_name :
    ∃ ms err, parseJson "\x7b\"name\":1,\"elements\":[\x7b\x7d]\x7d" = .ok (.object ms) ∧
      parseSheet "\x7b\"name\":1,\"elements\":[\x7b\x7d]\x7d" = .error err ∧
        Failure ms none (.mismatch (.integer 1) .string) ∧
          err.detail = (ShapeError.mismatch (.integer 1) .string).message ∧
            err.path = some (elementPath 0) := by
  have object : parseJson "\x7b\"name\":1,\"elements\":[\x7b\x7d]\x7d" =
      .ok (.object [("name", .integer 1), ("elements", .array [.object []])]) := by
    rfl
  have misnamed : Failure [("name", .integer 1), ("elements", .array [.object []])] none
      (.mismatch (.integer 1) .string) :=
    .member (.member rfl rfl fun h => absurd h (by decide))
  exact ⟨_, _, object, parseSheet_of_failure object misnamed, misnamed, rfl, rfl⟩

end ScoreSheet.Document
