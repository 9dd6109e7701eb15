import ScoreSheet.Proofs.State.Equality
import ScoreSheet.State.Comparison
set_option autoImplicit false

namespace ScoreSheet

theorem Datum.isKept_congr {d d' : Datum} (same : (d == d') = true) : d.isKept = d'.isKept := by
  cases d <;> cases d'
  case bool.bool => exact eq_of_beq (α := Bool) same
  case number.number => rfl
  case text.text => exact congrArg (fun s => !String.isEmpty s) (eq_of_beq (α := String) same)
  all_goals cases same

/-- Values with equal contents are kept with equal contents, or both not at all. -/
theorem filter_isKept_beq {v w : Option Datum} (same : (v == w) = true) :
    (v.filter Datum.isKept == w.filter Datum.isKept) = true := by
  cases v with
  | none => cases w <;> first | rfl | cases same
  | some d =>
    cases w with
    | none => cases same
    | some d' =>
      rw [Option.filter_some, Option.filter_some, Datum.isKept_congr same]
      split
      · exact same
      · rfl

namespace Entry
variable {e f : Entry}

theorem prune?_id (h : e.prune? = some f) : f.id = e.id := by
  unfold prune? at h
  dsimp only at h
  split at h <;> cases h
  rfl

/-- Of `disabled`, only the effective value counts. -/
theorem prune?_eq (e : Entry) : e.prune? =
    let value := e.value.filter Datum.isKept
    let disabled := if e.isDisabled then some true else none
    if value.isNone && disabled.isNone then none else some ⟨e.id, value, disabled⟩ := by
  have worth : e.disabled.filter (· == true) = if e.isDisabled then some true else none := by
    unfold isDisabled
    rcases e.disabled with _ | _ | _ <;> rfl
  rw [prune?, worth]

theorem prune?_pruned (h : e.prune? = some f) : f.prune? = some f := by
  unfold prune? at h
  dsimp only at h
  split at h
  · cases h
  · rename_i worth
    cases h
    unfold prune?
    dsimp only
    rw [Option.filter_filter]
    simp_all

end Entry

theorem prune_prune (entries : List Entry) : prune (prune entries) = prune entries := by
  unfold prune
  induction entries with
  | nil => rfl
  | cons e rest ih =>
    cases h : e.prune? with
    | none => rw [List.filterMap_cons_none h, ih]
    | some f =>
      rw [List.filterMap_cons_some h, List.filterMap_cons_some (Entry.prune?_pruned h), ih]

theorem ids_prune_sublist (entries : List Entry) :
    ((prune entries).map Entry.id).Sublist (entries.map Entry.id) := by
  unfold prune
  induction entries with
  | nil => exact .slnil
  | cons e rest ih =>
    cases h : e.prune? with
    | none =>
      rw [List.filterMap_cons_none h]
      exact ih.cons _
    | some f =>
      rw [List.filterMap_cons_some h, List.map_cons, Entry.prune?_id h]
      exact ih.cons_cons _

end ScoreSheet
