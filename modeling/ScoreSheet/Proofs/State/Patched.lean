import ScoreSheet.Proofs.State.Equality
import ScoreSheet.Proofs.State.Lookup
set_option autoImplicit false

namespace ScoreSheet

/-- The second entry is the first one with the fields that the patch provides. A value
equal to the one provided stays as it is. -/
structure Patch.Overrides (p : Patch) (e e' : Entry) : Prop where
  id : e'.id = e.id
  value : ∀ v, p.value = some v → e'.value = if e.value == v then e.value else v
  keeps_value : p.value = none → e'.value = e.value
  disabled : ∀ d, p.disabled = some d → e'.disabled = some d
  keeps_disabled : p.disabled = none → e'.disabled = e.disabled

structure Patched (id : String) (p : Patch) (before after : List Entry) (changed : Bool) :
    Prop where
  overrides : ∀ (i : Nat) (e : Entry), before[i]? = some e → e.id = id →
    ∃ e', after[i]? = some e' ∧ p.Overrides e e'
  keeps_others : ∀ (i : Nat) (e : Entry), before[i]? = some e → e.id ≠ id → after[i]? = some e
  appends_iff : (∃ e, after = before ++ [e]) ↔
    id ∉ before.map Entry.id ∧ ((∃ d, p.value = some (some d)) ∨ ∃ d, p.disabled = some d)
  appended : ∀ e, after = before ++ [e] →
    e.id = id ∧ e.value = p.value.join ∧ e.disabled = p.disabled
  keeps_length : (¬ ∃ e, after = before ++ [e]) → after.length = before.length
  unchanged : changed = false → after = before
  differs : changed = true → (after == before) = false
  distinct : changed = true → p.hasNaN = false → after ≠ before

namespace Patch
variable {p : Patch} {e : Entry}

theorem hasContent_iff :
    p.hasContent = true ↔ (∃ d, p.value = some (some d)) ∨ ∃ d, p.disabled = some d := by
  obtain ⟨value, disabled⟩ := p
  rw [hasContent, Bool.or_eq_true, Option.isSome_iff_exists, Option.isSome_iff_exists]
  simp only [Option.join_eq_some_iff]

theorem overrides_update (p : Patch) (e : Entry) : p.Overrides e (p.update e) where
  id := rfl
  value v hv := by
    unfold update changesValue
    simp only [hv, Option.join_some]
    cases e.value == v <;> rfl
  keeps_value hv := by
    unfold update changesValue
    rw [hv]
    rfl
  disabled d hd := by
    unfold update changesDisabled
    rw [hd]
    by_cases same : e.disabled = some d
    · rw [same]
      exact ite_self _
    · simp only [beq_eq_false_iff_ne.2 same, Bool.not_false, ↓reduceIte]
  keeps_disabled hd := by
    unfold update changesDisabled
    rw [hd]
    rfl

/-- A patch changes nothing of an entry that already has all that it provides. -/
theorem changes_eq_false : p.changes e = false ↔
    (∀ v, p.value = some v → (e.value == v) = true) ∧
      ∀ d, p.disabled = some d → e.disabled = some d := by
  rw [changes, Bool.or_eq_false_iff, changesValue, changesDisabled]
  cases p.value <;> cases p.disabled <;> simp

theorem beq_self_of_hasNaN {v : Option Datum} (number : p.hasNaN = false) (hv : p.value = some v) :
    (v == v) = true := by
  cases v with
  | none => rfl
  | some d =>
    rw [hasNaN, hv] at number
    exact Datum.beq_self number

/-- A second time there is nothing to change. -/
theorem changes_update (number : p.hasNaN = false) (e : Entry) :
    p.changes (p.update e) = false := by
  have overrides := p.overrides_update e
  refine changes_eq_false.2 ⟨fun v hv => ?_, overrides.disabled⟩
  rw [overrides.value v hv]
  split
  · assumption
  · exact beq_self_of_hasNaN number hv

theorem changes_create (number : p.hasNaN = false) (id : String) :
    p.changes (p.create id) = false := by
  refine changes_eq_false.2 ⟨fun v hv => ?_, fun d hd => hd⟩
  rw [create, hv]
  exact beq_self_of_hasNaN number hv

/-- An entry that a patch changes is not equal to what it becomes. -/
theorem update_beq (h : p.changes e = true) : (p.update e == e) = false := by
  have overrides := p.overrides_update e
  refine Bool.eq_false_iff.2 fun same => Bool.eq_false_iff.1 (changes_eq_false.2 ?_) h
  obtain ⟨-, value, disabled⟩ := Entry.beq_iff.1 same
  refine ⟨fun v hv => ?_, fun d hd => ?_⟩
  · rw [overrides.value v hv] at value
    split at value
    · assumption
    · exact BEq.symm value
  · rw [← disabled, overrides.disabled d hd]

theorem update_ne (number : p.hasNaN = false) (h : p.changes e = true) : p.update e ≠ e := by
  intro same
  have again := changes_update number e
  rw [same, h] at again
  cases again

end Patch

namespace Store
variable {s : Store} {id : String} {p : Patch}

theorem patched_absent (absent : s.get? id = none) :
    Patched id p s.entries (s.apply id p).1.entries (s.apply id p).2 := by
  have fresh : id ∉ s.entries.map Entry.id := get?_eq_none_iff_ids.1 absent
  have other (i : Nat) (e : Entry) (he : s.entries[i]? = some e) : e.id ≠ id := fun same =>
    fresh (same ▸ List.mem_map_of_mem (List.mem_of_getElem? he))
  rw [apply_absent absent]
  by_cases content : p.hasContent = true
  · rw [if_pos content]
    have appended {e : Entry} (h : s.entries ++ [p.create id] = s.entries ++ [e]) :
        e = p.create id := (List.cons.inj (List.append_cancel_left h)).1.symm
    constructor
    case overrides => exact fun i e he same => absurd same (other i e he)
    case keeps_others =>
      intro i e he _
      rw [List.getElem?_append_left (List.getElem?_eq_some_iff.1 he).1, he]
    case appends_iff => exact ⟨fun _ => ⟨fresh, Patch.hasContent_iff.1 content⟩, fun _ => ⟨_, rfl⟩⟩
    case appended =>
      intro e he
      rw [appended he]
      exact ⟨rfl, rfl, rfl⟩
    case keeps_length => exact fun h => absurd ⟨_, rfl⟩ h
    case unchanged => exact fun h => nomatch h
    case differs =>
      refine fun _ => Bool.eq_false_iff.2 fun h => ?_
      have same := length_eq_of_beq h
      rw [List.length_append, List.length_singleton] at same
      omega
    case distinct =>
      intro _ _ same
      exact List.cons_ne_nil _ _ (List.append_right_eq_self.1 same)
  · rw [if_neg content]
    have kept {e : Entry} (h : s.entries = s.entries ++ [e]) : False :=
      List.cons_ne_nil _ _ (List.self_eq_append_right.1 h)
    constructor
    case overrides => exact fun i e he same => absurd same (other i e he)
    case keeps_others => exact fun i e he _ => he
    case appends_iff =>
      exact ⟨fun ⟨e, he⟩ => (kept he).elim, fun h => absurd (Patch.hasContent_iff.2 h.2) content⟩
    case appended => exact fun e he => (kept he).elim
    case keeps_length => exact fun _ => rfl
    case unchanged => exact fun _ => rfl
    case differs => exact fun h => nomatch h
    case distinct => exact fun h => nomatch h

/-- Where the ids are distinct, the patch meets every entry of its id. -/
theorem entries_apply_present (once : s.ids.Nodup) {e : Entry} (present : s.get? id = some e) :
    (s.apply id p).1.entries = s.entries.map fun f => if f.id = id then p.update f else f := by
  obtain ⟨before, after, hs, absent, patched⟩ := apply_present (p := p) present
  have here : e.id = id := get?_id present
  have behind : ∀ f ∈ after, f.id ≠ id := fun f hf same => by
    rw [ids, hs, List.map_append, List.map_cons] at once
    refine (List.nodup_cons.1 (List.nodup_append.1 once).2.1).1 ?_
    rw [here, ← same]
    exact List.mem_map_of_mem hf
  have kept {part : List Entry} (h : ∀ f ∈ part, f.id ≠ id) :
      part.map (fun f => if f.id = id then p.update f else f) = part :=
    (List.map_congr_left fun f hf => if_neg (h f hf)).trans (List.map_id' part)
  rw [patched, hs, List.map_append, List.map_cons, kept absent, kept behind, if_pos here]

theorem patched_present (once : s.ids.Nodup) {e : Entry} (present : s.get? id = some e) :
    Patched id p s.entries (s.apply id p).1.entries (s.apply id p).2 := by
  have entries := entries_apply_present (p := p) once present
  have known : id ∈ s.entries.map Entry.id :=
    Decidable.not_not.1 fun fresh => Option.some_ne_none e
      (present.symm.trans (get?_eq_none_iff_ids.2 fresh))
  have length : (s.apply id p).1.entries.length = s.entries.length := by
    rw [entries, List.length_map]
  have kept {f : Entry} (h : (s.apply id p).1.entries = s.entries ++ [f]) : False := by
    have longer := congrArg List.length h
    rw [length, List.length_append, List.length_singleton] at longer
    omega
  obtain ⟨before, after, hs, absent, patched⟩ := apply_present (p := p) present
  constructor
  case overrides =>
    intro i f hf same
    rw [entries, List.getElem?_map, hf]
    exact ⟨p.update f, congrArg some (if_pos same), p.overrides_update f⟩
  case keeps_others =>
    intro i f hf distinct
    rw [entries, List.getElem?_map, hf]
    exact congrArg some (if_neg distinct)
  case appends_iff => exact ⟨fun ⟨f, hf⟩ => (kept hf).elim, fun h => absurd known h.1⟩
  case appended => exact fun f hf => (kept hf).elim
  case keeps_length => exact fun _ => length
  case unchanged => exact fun h => congrArg Store.entries (apply_eq_self h)
  case differs =>
    rw [patched, hs]
    refine fun h => Bool.eq_false_iff.2 fun same => ?_
    have equal := beq_of_middle same
    rw [Patch.update_beq h] at equal
    cases equal
  case distinct =>
    rw [patched, hs]
    intro h number same
    exact Patch.update_ne number h (List.cons.inj (List.append_cancel_left same)).1

/-- A second time, a patch finds nothing to change. -/
theorem apply_twice (number : p.hasNaN = false) (s : Store) (id : String) :
    ((s.apply id p).1.apply id p).2 = false := by
  rw [apply_changed, get?_apply, if_pos rfl]
  cases s.get? id with
  | none =>
    by_cases content : p.hasContent = true
    · simp only [Patch.applyTo, content, ↓reduceIte, Patch.changes_create number]
    · simp only [Patch.applyTo, content, Bool.false_eq_true, ↓reduceIte]
  | some e => exact Patch.changes_update number e

end Store

end ScoreSheet
