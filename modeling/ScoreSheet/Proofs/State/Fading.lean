import Mathlib.Data.List.Nodup
import ScoreSheet.Proofs.State.Patched
import ScoreSheet.Proofs.State.Pruning
set_option autoImplicit false

/-! A saved state has no empty texts, no empty checkboxes and no `disabled` that is false. A
store that lacks some of these values and is the same otherwise fades another one. What is
restored fades what has been saved, and is saved as the same entries. -/
namespace ScoreSheet.Store

variable {s t : Store} {id other : String} {p : Patch}

def disabled? (s : Store) (id : String) : Option Bool := (s.get? id).bind Entry.disabled

theorem isDisabled_eq (s : Store) (id : String) : s.isDisabled id = (s.disabled? id).getD false := by
  unfold isDisabled disabled?
  cases s.get? id <;> rfl

/-- Where there is no entry, there are the fields that the patch provides. -/
theorem fields_applyTo_none (p : Patch) (id : String) :
    (p.applyTo id none).1.bind Entry.value = p.value.join ∧
      (p.applyTo id none).1.bind Entry.disabled = p.disabled := by
  unfold Patch.applyTo
  dsimp only
  split
  · exact ⟨rfl, rfl⟩
  · rename_i nothing
    rw [Patch.hasContent, Bool.or_eq_true, not_or, Option.not_isSome_iff_eq_none,
      Option.not_isSome_iff_eq_none] at nothing
    rw [nothing.1, nothing.2]
    exact ⟨rfl, rfl⟩

theorem value?_apply (s : Store) (id other : String) (p : Patch) :
    (s.apply id p).1.value? other =
      if other = id then
        match p.value with
        | none => s.value? id
        | some v => if s.value? id == v then s.value? id else v
      else s.value? other := by
  unfold value?
  rw [get?_apply]
  split
  · cases s.get? id with
    | none =>
      rw [(fields_applyTo_none p id).1]
      rcases p.value with _ | _ | d <;> rfl
    | some e =>
      have overrides := p.overrides_update e
      cases hv : p.value with
      | none => exact overrides.keeps_value hv
      | some v => exact overrides.value v hv
  · rfl

theorem disabled?_apply (s : Store) (id other : String) (p : Patch) :
    (s.apply id p).1.disabled? other =
      if other = id then p.disabled.or (s.disabled? id) else s.disabled? other := by
  unfold disabled?
  rw [get?_apply]
  split
  · cases s.get? id with
    | none => rw [(fields_applyTo_none p id).2, Option.bind_none, Option.or_none]
    | some e =>
      have overrides := p.overrides_update e
      cases hd : p.disabled with
      | none => exact overrides.keeps_disabled hd
      | some d => exact overrides.disabled d hd
  · rfl

/-- A patch changes nothing if the store has all that it provides. -/
theorem apply_unchanged_iff : (s.apply id p).2 = false ↔
    (∀ v, p.value = some v → (s.value? id == v) = true) ∧
      ∀ d, p.disabled = some d → s.disabled? id = some d := by
  unfold value? disabled?
  rw [apply_changed]
  cases s.get? id with
  | none =>
    obtain ⟨value, disabled⟩ := p
    cases disabled <;> rcases value with _ | _ | d <;> simp [Patch.applyTo, Patch.hasContent]
  | some e => exact Patch.changes_eq_false

def saved? (s : Store) (id : String) : Option Entry := (s.get? id).bind Entry.prune?

theorem saved?_eq (s : Store) (id : String) :
    s.saved? id =
      let value := (s.value? id).filter Datum.isKept
      let disabled := if s.isDisabled id then some true else none
      if value.isNone && disabled.isNone then none else some ⟨id, value, disabled⟩ := by
  unfold saved? value? isDisabled
  cases found : s.get? id with
  | none => rfl
  | some e =>
    obtain rfl := get?_id found
    exact e.prune?_eq

theorem saved?_id {e : Entry} (h : s.saved? id = some e) : e.id = id := by
  obtain ⟨f, found, worth⟩ := Option.bind_eq_some_iff.1 h
  exact (Entry.prune?_id worth).trans (get?_id found)

theorem saved?_value (s : Store) (id : String) :
    (s.saved? id).bind Entry.value = (s.value? id).filter Datum.isKept := by
  rw [saved?_eq]
  cases (s.value? id).filter Datum.isKept <;> cases s.isDisabled id <;> rfl

theorem saved?_isDisabled (s : Store) (id : String) :
    ((s.saved? id).map Entry.isDisabled).getD false = s.isDisabled id := by
  rw [saved?_eq]
  cases (s.value? id).filter Datum.isKept <;> cases s.isDisabled id <;> rfl

theorem mem_prune (once : s.ids.Nodup) {e : Entry} :
    e ∈ prune s.entries ↔ s.saved? e.id = some e := by
  constructor
  · intro worth
    obtain ⟨f, hf, hp⟩ := List.mem_filterMap.1 worth
    have saved : s.saved? f.id = some e := by rw [saved?, (get?_eq_some once).2 ⟨hf, rfl⟩, ← hp]; rfl
    rwa [saved?_id saved]
  · intro saved
    obtain ⟨f, found, hp⟩ := Option.bind_eq_some_iff.1 saved
    exact List.mem_filterMap.2 ⟨f, ((get?_eq_some once).1 found).1, hp⟩

theorem nodup_prune (once : s.ids.Nodup) : ((prune s.entries).map Entry.id).Nodup :=
  (ids_prune_sublist s.entries).nodup once

theorem ofEntries_prune (once : s.ids.Nodup) : ofEntries (prune s.entries) = ⟨prune s.entries⟩ :=
  ofEntries_of_nodup (nodup_prune once)

theorem get?_ofEntries_prune (once : s.ids.Nodup) (id : String) :
    (ofEntries (prune s.entries)).get? id = s.saved? id := by
  refine Option.ext fun e => ?_
  rw [get?_eq_some (nodup_ofEntries _), ofEntries_prune once]
  constructor
  · rintro ⟨worth, rfl⟩
    exact (mem_prune once).1 worth
  · intro saved
    obtain rfl := saved?_id saved
    exact ⟨(mem_prune once).2 saved, rfl⟩

/-- What is not worth saving is no number, so equal contents are the same. -/
theorem eq_of_dropped {value v : Option Datum} (dropped : value.filter Datum.isKept = none)
    (same : (value == v) = true) : v = value := by
  rcases value with _ | b | x | text <;> rcases v with _ | b' | x' | text'
  case none.none => rfl
  case some.bool.some.bool => exact congrArg (some ∘ Datum.bool) (eq_of_beq (α := Bool) same).symm
  case some.text.some.text => exact congrArg (some ∘ Datum.text) (eq_of_beq (α := String) same).symm
  case some.number.some.number => cases dropped
  all_goals cases same

/-- Whether a store is another one without some of the values that are not worth saving. -/
structure Fades (t s : Store) : Prop where
  value : ∀ id, t.value? id = s.value? id ∨
    t.value? id = none ∧ (s.value? id).filter Datum.isKept = none
  disabled : ∀ id, t.isDisabled id = s.isDisabled id

structure SavedLike (t s : Store) : Prop where
  value : ∀ id, (t.value? id).filter Datum.isKept = (s.value? id).filter Datum.isKept
  disabled : ∀ id, t.isDisabled id = s.isDisabled id

theorem Fades.savedLike (h : t.Fades s) : t.SavedLike s where
  value id := by
    rcases h.value id with same | ⟨gone, dropped⟩
    · rw [same]
    · rw [gone, dropped, Option.filter_none]
  disabled := h.disabled

theorem SavedLike.prune (h : t.SavedLike s) (ht : t.ids.Nodup) (hs : s.ids.Nodup) :
    (prune t.entries).Perm (ScoreSheet.prune s.entries) := by
  have distinct {u : Store} (once : u.ids.Nodup) : (ScoreSheet.prune u.entries).Nodup :=
    List.Nodup.of_map Entry.id (nodup_prune once)
  refine (List.perm_ext_iff_of_nodup (distinct ht) (distinct hs)).2 fun e => ?_
  rw [mem_prune ht, mem_prune hs, saved?_eq, saved?_eq, h.disabled, h.value]

/-- What is restored from a saved state fades what has been saved. -/
theorem fades_ofEntries_prune (once : s.ids.Nodup) : (ofEntries (prune s.entries)).Fades s where
  value id := by
    have restored : (ofEntries (prune s.entries)).value? id =
        (s.value? id).filter Datum.isKept := by
      rw [value?, get?_ofEntries_prune once, saved?_value]
    rw [restored]
    cases s.value? id with
    | none => exact .inl rfl
    | some d =>
      rw [Option.filter_some]
      split
      · exact .inl rfl
      · exact .inr ⟨rfl, rfl⟩
  disabled id := by
    rw [isDisabled, get?_ofEntries_prune once, saved?_isDisabled]

end ScoreSheet.Store
