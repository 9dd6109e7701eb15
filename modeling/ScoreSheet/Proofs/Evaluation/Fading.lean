import ScoreSheet.Proofs.Evaluation.Resumption
import ScoreSheet.Proofs.Rule.Aggregate
import ScoreSheet.Proofs.State.Fading
set_option autoImplicit false

/-! A program that has settled on a store provides only what the store has. If it provides the
same, up to what is not worth saving, on a store that has faded and on those that passes lead
to from there, then all of them are saved as the same entries. -/
namespace ScoreSheet

open Rule

/-- Whether all that the write provides is also provided by one of the writes, or is not worth
saving and stands where the store has nothing worth saving. -/
structure Write.Echoes (w : Write) (writes : List Write) (s : Store) : Prop where
  value : ∀ x, w.patch.value = some x →
    (∃ v ∈ writes, v.id = w.id ∧ v.patch.value = some x) ∨
      x.filter Datum.isKept = none ∧ (s.value? w.id).filter Datum.isKept = none
  disabled : ∀ d, w.patch.disabled = some d →
    (∃ v ∈ writes, v.id = w.id ∧ v.patch.disabled = some d) ∨
      d = false ∧ s.isDisabled w.id = false

namespace Store
variable {s t : Store} {w : Write} {writes issued : List Write}

/-- Whether the store has all that a write provides. -/
structure Absorbs (s : Store) (w : Write) : Prop where
  value : ∀ x, w.patch.value = some x → (s.value? w.id == x) = true
  disabled : ∀ d, w.patch.disabled = some d → s.disabled? w.id = some d

theorem changedBy_eq_false_iff : s.changedBy writes = false ↔ ∀ w ∈ writes, s.Absorbs w := by
  refine changedBy_eq_false.trans (forall₂_congr fun w _ => apply_unchanged_iff.trans ?_)
  exact ⟨fun h => ⟨h.1, h.2⟩, fun h => ⟨h.value, h.disabled⟩⟩

/-- A value that a store has and that differs from another one with the same saved value is
not worth saving. -/
theorem filter_of_absorbed {value held x : Option Datum}
    (like : value.filter Datum.isKept = held.filter Datum.isKept) (has : (held == x) = true)
    (differs : ¬ (value == x) = true) : x.filter Datum.isKept = held.filter Datum.isKept := by
  cases saved : held.filter Datum.isKept with
  | none => rw [eq_of_dropped saved has, saved]
  | some d =>
    obtain ⟨rfl, -⟩ := Option.filter_eq_some_iff.1 saved
    obtain ⟨rfl, -⟩ := Option.filter_eq_some_iff.1 (like.trans saved)
    exact absurd has differs

/-- An echo of writes that a store has absorbed leaves another one saved like it. -/
theorem SavedLike.apply (h : t.SavedLike s) (settled : s.changedBy writes = false)
    (echo : w.Echoes writes s) : (t.apply w.id w.patch).1.SavedLike s where
  value id := by
    rw [value?_apply]
    split
    · rename_i same
      subst same
      cases hx : w.patch.value with
      | none => exact h.value w.id
      | some x =>
        dsimp only
        split
        · exact h.value w.id
        · rename_i differs
          rcases echo.value x hx with ⟨v, hv, same, provided⟩ | ⟨dropped, nothing⟩
          · have has := (changedBy_eq_false_iff.1 settled v hv).value x provided
            exact filter_of_absorbed (h.value w.id) (same ▸ has) differs
          · rw [dropped, nothing]
    · exact h.value id
  disabled id := by
    rw [isDisabled_eq, disabled?_apply]
    split
    · rename_i same
      subst same
      cases hd : w.patch.disabled with
      | none => exact (isDisabled_eq t w.id).symm.trans (h.disabled w.id)
      | some d =>
        rcases echo.disabled d hd with ⟨v, hv, same, provided⟩ | ⟨rfl, enabled⟩
        · have has := (changedBy_eq_false_iff.1 settled v hv).disabled d provided
          rw [isDisabled_eq, ← same, has]
          rfl
        · exact enabled.symm
    · exact (isDisabled_eq t id).symm.trans (h.disabled id)

theorem SavedLike.applyAll (h : t.SavedLike s) (settled : s.changedBy writes = false)
    (echoes : ∀ w ∈ issued, w.Echoes writes s) : (t.applyAll issued).SavedLike s := by
  induction issued generalizing t with
  | nil => exact h
  | cons w issued ih =>
    obtain ⟨echo, rest⟩ := List.forall_mem_cons.1 echoes
    exact ih (h.apply settled echo) rest

/-- An empty checkbox counts as one without a value. -/
theorem Fades.checked (h : t.Fades s) (id : String) :
    (t.value? id == some (.bool true)) = (s.value? id == some (.bool true)) := by
  rcases h.value id with same | ⟨gone, dropped⟩
  · rw [same]
  · have unchecked : (s.value? id == some (.bool true)) = false := by
      refine Bool.eq_false_iff.2 fun checked => ?_
      rw [← eq_of_dropped dropped checked] at dropped
      cases dropped
    rw [gone, unchecked]
    rfl

/-- What is not worth saving is no number, so it adds nothing. -/
theorem Fades.summand? (h : t.Fades s) (e : Element) :
    summand? (View.ofElement t e) = summand? (View.ofElement s e) := by
  unfold Rule.summand? View.ofElement
  dsimp only
  rcases h.value e.id with same | ⟨gone, dropped⟩
  · rw [same]
  · rw [gone]
    generalize s.value? e.id = value at dropped
    rcases value with _ | _ | _ | _
    case some.number => cases dropped
    all_goals cases e.kind <;> rfl

theorem Fades.tally (h : t.Fades s) (elements : List Element) :
    (views elements t).map tally = (views elements s).map tally := by
  unfold views
  rw [List.map_map, List.map_map]
  refine List.map_congr_left fun e _ => ?_
  have checked : isChecked (View.ofElement t e) = isChecked (View.ofElement s e) :=
    congrArg (isCheckbox (View.ofElement s e) && ·) (h.checked e.id)
  rw [Function.comp_apply, Function.comp_apply, Rule.tally, Rule.tally, checked, h.summand? e]
  rfl

end Store

namespace Program
variable {p : Program} {elements : List Element} {limit : Nat} {s t : Store}

/-- The stores that have faded and those that passes lead to from them, as long as the same
entries are saved. -/
inductive Regained (p : Program) (elements : List Element) (limit : Nat) (s : Store) :
    Store → Prop
  | faded {t : Store} : t.Fades s → Regained p elements limit s t
  | pass {t t' : Store} {changed : Bool} : Regained p elements limit s t →
    p.pass elements limit t = .ok changed t' → t'.SavedLike s → Regained p elements limit s t'

/-- Whether a pass that ends well on such a store provides what it provides on the store
itself, up to what is not worth saving. -/
def IgnoresFading (p : Program) (elements : List Element) (limit : Nat) (s : Store) : Prop :=
  ∀ t changed t', p.Regained elements limit s t → p.pass elements limit t = .ok changed t' →
    ∀ w ∈ (p.trace (views elements t) limit).writes,
      w.Echoes (p.trace (views elements s) limit).writes s

theorem Regained.savedLike (h : p.Regained elements limit s t) : t.SavedLike s := by
  cases h with
  | faded faded => exact faded.savedLike
  | pass _ _ like => exact like

theorem IgnoresFading.pass {changed : Bool} {t' : Store} (h : p.IgnoresFading elements limit s)
    (settled : p.pass elements limit s = .ok false s) (ht : p.Regained elements limit s t)
    (ended : p.pass elements limit t = .ok changed t') : p.Regained elements limit s t' := by
  obtain ⟨-, unchanged, -⟩ := pass_ok settled
  obtain ⟨-, -, left⟩ := pass_ok ended
  have like := ht.savedLike.applyAll unchanged.symm (h t changed t' ht ended)
  exact .pass ht ended (left ▸ like)

end Program

end ScoreSheet
