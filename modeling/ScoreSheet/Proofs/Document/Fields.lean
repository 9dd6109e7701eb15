import ScoreSheet.Document.Decoding
import ScoreSheet.Document.Encoding
import ScoreSheet.Proofs.Keyed
import ScoreSheet.Proofs.Result
set_option autoImplicit false

namespace ScoreSheet.Document

variable {α β : Type}

theorem sequence_listOf {decode : Decoder β} {encode : α → Json} {g : α → β} {xs : List α}
    (h : ∀ x ∈ xs, decode (encode x) = .ok (g x)) :
    sequence decode (listOf encode xs) = .ok (xs.map g) :=
  mapM_map h

theorem dictionary_object {decode : Decoder α} {encode : α → Json} {entries : Keyed α}
    (sorted : entries.Ascending) (h : ∀ e ∈ entries, decode (encode e.2) = .ok e.2) :
    dictionary decode (.object (entries.map fun (k, x) => (k, encode x))) = .ok entries := by
  unfold dictionary mapping
  dsimp only
  rw [mapM_map (h := id), List.map_id]
  · exact congrArg Except.ok (Keyed.ofList_of_ascending sorted)
  · intro e he
    dsimp only
    rw [h e he]
    rfl

theorem nullable_ok {decode : Decoder α} {v : Json} {x : α} (hn : v ≠ .null)
    (h : decode v = .ok x) : nullable decode v = .ok (some x) := by
  unfold nullable
  split
  · exact absurd rfl hn
  · rw [h]
    rfl

theorem keys_optionalMember (name : String) (encode : α → Json) (x : Option α) :
    ((optionalMember name encode x).map Prod.fst).Sublist [name] := by
  cases x with
  | none => exact List.nil_sublist _
  | some x => exact List.Sublist.refl _

theorem keys_dictionaryMember (name : String) (encode : α → Json) (entries : Keyed α) :
    ((dictionaryMember name encode entries).map Prod.fst).Sublist [name] := by
  unfold dictionaryMember
  split
  · exact List.nil_sublist _
  · exact List.Sublist.refl _

@[simp]
theorem lookup_optionalMember (key name : String) (encode : α → Json) (x : Option α) :
    (optionalMember name encode x).lookup key = if key = name then x.map encode else none := by
  cases x with
  | none => simp [optionalMember]
  | some x =>
    change List.lookup key [(name, encode x)] = _
    rw [List.lookup_cons]
    split <;> simp_all

def dictionary? (encode : α → Json) (entries : Keyed α) : Option Json :=
  if entries.isEmpty then none else some (.object (entries.map fun (k, x) => (k, encode x)))

@[simp]
theorem lookup_dictionaryMember (key name : String) (encode : α → Json) (entries : Keyed α) :
    (dictionaryMember name encode entries).lookup key =
      if key = name then dictionary? encode entries else none := by
  unfold dictionaryMember dictionary?
  split
  · simp
  · rw [List.lookup_cons]
    split <;> simp_all

theorem lookup_of_mem {ms : Members} (distinct : (ms.map Prod.fst).Nodup) {m : String × Json}
    (h : m ∈ ms) : ms.lookup m.1 = some m.2 := by
  induction ms with
  | nil => cases h
  | cons n ms ih =>
    rw [List.map_cons, List.nodup_cons] at distinct
    rcases List.mem_cons.1 h with rfl | h
    · rw [List.lookup_cons, beq_self_eq_true]
    · have other : m.1 ≠ n.1 := fun same =>
        distinct.1 (same ▸ List.mem_map_of_mem (f := Prod.fst) h)
      rw [List.lookup_cons, beq_false_of_ne other]
      exact ih distinct.2 h

/-- The member with the name of the field, if there is one, is such as the field wants. -/
def Passes (ms : Members) (f : Field) : Prop := ∀ v ∈ ms.lookup f.name, f.check v = .ok ()

theorem checkMembers_ok {fields : List Field} {ms : Members}
    (h : ∀ m ∈ ms, ∀ f ∈ fields, f.name = m.1 → f.check m.2 = .ok ()) :
    checkMembers fields ms = .ok () := by
  induction ms with
  | nil => rfl
  | cons m ms ih =>
    obtain ⟨hm, hms⟩ := List.forall_mem_cons.1 h
    unfold checkMembers
    split
    · rename_i f hf
      have same := List.find?_some hf
      rw [hm f (List.mem_of_find?_eq_some hf) (eq_of_beq same)]
      exact ih hms
    · exact ih hms

theorem Form.members_object {form : Form} {ms : Members} (distinct : (ms.map Prod.fst).Nodup)
    (h : ∀ f ∈ form.fields, Passes ms f) : form.members (.object ms) = .ok ms := by
  have checked : checkMembers form.fields ms = .ok () := by
    refine checkMembers_ok fun m hm f hf same => h f hf m.2 ?_
    rw [same]
    exact lookup_of_mem distinct hm
  unfold Form.members
  dsimp only
  rw [checked]
  rfl

section Written
variable {ms : Members} {name : String}

theorem passes_of_ok {presence : Presence} {decode : Decoder α}
    (h : ∀ v ∈ ms.lookup name, ∃ x, decode v = .ok x) : Passes ms (field name presence decode) := by
  intro v hv
  obtain ⟨x, hx⟩ := h v hv
  unfold field
  dsimp only
  rw [hx]
  rfl

theorem required_written {decode : Decoder α} {v : Json} {x : α}
    (hl : ms.lookup name = some v) (h : decode v = .ok x) :
    required ms name decode = .ok x ∧ Passes ms (field name .required decode) := by
  constructor
  · unfold required
    rw [hl]
    exact h
  · refine passes_of_ok fun w hw => ⟨x, ?_⟩
    obtain rfl : v = w := Option.some.inj (hl.symm.trans hw)
    exact h

theorem optional_written {decode : Decoder β} {encode : α → Json} {g : α → β} {x : Option α}
    (hl : ms.lookup name = x.map encode)
    (h : ∀ a ∈ x, encode a ≠ .null ∧ decode (encode a) = .ok (g a)) :
    optional ms name decode = .ok (x.map g) ∧
      ∀ presence, Passes ms (field name presence (nullable decode)) := by
  have written (a : α) (ha : a ∈ x) : nullable decode (encode a) = .ok (some (g a)) :=
    nullable_ok (h a ha).1 (h a ha).2
  constructor
  · unfold optional
    rw [hl]
    cases x with
    | none => rfl
    | some a => exact written a rfl
  · refine fun _ => passes_of_ok fun w hw => ?_
    rw [hl] at hw
    obtain ⟨a, ha, rfl⟩ := Option.map_eq_some_iff.1 hw
    exact ⟨_, written a ha⟩

theorem dictionary_written {decode : Decoder α} {encode : α → Json} {entries : Keyed α}
    (hl : ms.lookup name = dictionary? encode entries) (sorted : entries.Ascending)
    (h : ∀ e ∈ entries, decode (encode e.2) = .ok e.2) :
    withDefault ms name (dictionary decode) [] = .ok entries ∧
      Passes ms (field name .defaulted (dictionary decode)) := by
  have written := dictionary_object sorted h
  unfold dictionary? at hl
  split at hl
  · rename_i empty
    refine ⟨?_, passes_of_ok fun w hw => ?_⟩
    · unfold withDefault
      rw [hl, List.isEmpty_iff.1 empty]
    · rw [hl] at hw
      cases hw
  · refine ⟨?_, passes_of_ok fun w hw => ⟨entries, ?_⟩⟩
    · unfold withDefault
      rw [hl]
      exact written
    · rw [hl] at hw
      cases hw
      exact written

end Written

end ScoreSheet.Document
