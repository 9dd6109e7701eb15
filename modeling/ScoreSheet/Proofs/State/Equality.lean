import ScoreSheet.Proofs.Number.Zeros
import ScoreSheet.State.Store
set_option autoImplicit false

namespace ScoreSheet

instance partialEquivBEqFloat : PartialEquivBEq Float where
  symm h := (Number.beq_comm _ _).trans h
  trans h k := by
    obtain ⟨alike, number⟩ := Number.beq_iff.1 h
    obtain ⟨alike', -⟩ := Number.beq_iff.1 k
    exact Number.beq_iff.2 ⟨alike.trans alike', number⟩

namespace Datum

def isNaN : Datum → Bool
  | number x => x.isNaN
  | bool _ | text _ => false

theorem beq_self {d : Datum} (h : d.isNaN = false) : (d == d) = true := by
  cases d with
  | bool b => exact BEq.rfl (α := Bool)
  | number x => exact Number.beq_iff.2 ⟨rfl, h⟩
  | text s => exact BEq.rfl (α := String)

instance partialEquivBEq : PartialEquivBEq Datum where
  symm {a b} h := by
    cases a <;> cases b
    case bool.bool => exact BEq.symm (α := Bool) h
    case number.number => exact BEq.symm (α := Float) h
    case text.text => exact BEq.symm (α := String) h
    all_goals cases h
  trans {a b c} h k := by
    cases a <;> cases b
    case bool.bool =>
      cases c with
      | bool => exact BEq.trans (α := Bool) h k
      | number _ | text _ => cases k
    case number.number =>
      cases c with
      | number => exact BEq.trans (α := Float) h k
      | bool _ | text _ => cases k
    case text.text =>
      cases c with
      | text => exact BEq.trans (α := String) h k
      | bool _ | number _ => cases k
    all_goals cases h

end Datum

def Patch.hasNaN (p : Patch) : Bool := p.value.join.any Datum.isNaN

instance partialEquivBEqOption {α : Type} [BEq α] [PartialEquivBEq α] :
    PartialEquivBEq (Option α) where
  symm {a b} h := by
    cases a <;> cases b
    case none.none => rfl
    case some.some => exact BEq.symm (α := α) h
    all_goals cases h
  trans {a b c} h k := by
    cases a <;> cases b
    case none.none => exact k
    case some.some =>
      cases c with
      | none => cases k
      | some c => exact BEq.trans (α := α) h k
    all_goals cases h

theorem Entry.beq_iff {e f : Entry} : (e == f) = true ↔
    e.id = f.id ∧ (e.value == f.value) = true ∧ e.disabled = f.disabled := by
  change (e.id == f.id && e.value == f.value && e.disabled == f.disabled) = true ↔ _
  rw [Bool.and_eq_true, Bool.and_eq_true, and_assoc]
  exact and_congr beq_iff_eq (and_congr_right fun _ => beq_iff_eq)

section Lists
variable {α : Type} [BEq α]

theorem length_eq_of_beq {as bs : List α} (h : (as == bs) = true) : as.length = bs.length := by
  induction as generalizing bs with
  | nil =>
    cases bs with
    | nil => rfl
    | cons b bs => cases h
  | cons a as ih =>
    cases bs with
    | nil => cases h
    | cons b bs =>
      rw [List.cons_beq_cons, Bool.and_eq_true] at h
      rw [List.length_cons, List.length_cons, ih h.2]

theorem beq_of_middle {before after after' : List α} {a b : α}
    (h : (before ++ a :: after == before ++ b :: after') = true) : (a == b) = true := by
  induction before with
  | nil => exact (Bool.and_eq_true_iff.1 (List.cons_beq_cons.symm.trans h)).1
  | cons c before ih =>
    rw [List.cons_append, List.cons_append, List.cons_beq_cons, Bool.and_eq_true] at h
    exact ih h.2

end Lists

end ScoreSheet
