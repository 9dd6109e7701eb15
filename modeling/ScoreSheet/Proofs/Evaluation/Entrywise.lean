import ScoreSheet.Proofs.Evaluation.Writes
import ScoreSheet.Proofs.State.Lookup
set_option autoImplicit false

namespace ScoreSheet

/-- What patches make of what there is for an id, one after the other, and whether one of
them changes it. -/
def patchAll (id : String) : List Patch → Option Entry → Option Entry × Bool
  | [], before => (before, false)
  | p :: patches, before =>
    let (between, changed) := p.applyTo id before
    let (after, more) := patchAll id patches between
    (after, changed || more)

def patchesTo (id : String) (writes : List Write) : List Patch :=
  (writes.filter (·.id == id)).map Write.patch

theorem patchesTo_cons (id : String) (w : Write) (writes : List Write) :
    patchesTo id (w :: writes) =
      if w.id = id then w.patch :: patchesTo id writes else patchesTo id writes := by
  unfold patchesTo
  by_cases here : w.id = id
  · rw [if_pos here, List.filter_cons_of_pos (by simpa using here), List.map_cons]
  · rw [if_neg here, List.filter_cons_of_neg (by simpa using here)]

theorem patchesTo_eq_nil {id : String} {writes : List Write} :
    patchesTo id writes = [] ↔ ∀ w ∈ writes, w.id ≠ id := by
  simp [patchesTo, List.map_eq_nil_iff, List.filter_eq_nil_iff]

theorem patchesTo_append (id : String) (writes more : List Write) :
    patchesTo id (writes ++ more) = patchesTo id writes ++ patchesTo id more := by
  rw [patchesTo, List.filter_append, List.map_append, patchesTo, patchesTo]

theorem patchesTo_flatMap {α : Type} (id : String) (g : α → List Write) (xs : List α) :
    patchesTo id (xs.flatMap g) = xs.flatMap fun x => patchesTo id (g x) := by
  simp [patchesTo, List.filter_flatMap, List.map_flatMap]

namespace Store

theorem get?_applyAll (s : Store) (writes : List Write) (id : String) :
    (s.applyAll writes).get? id = (patchAll id (patchesTo id writes) (s.get? id)).1 := by
  induction writes generalizing s with
  | nil => rfl
  | cons w writes ih =>
    refine (ih (s.apply w.id w.patch).1).trans ?_
    rw [get?_apply, patchesTo_cons]
    by_cases here : w.id = id
    · subst here
      rw [if_pos rfl, if_pos rfl]
      rfl
    · rw [if_neg (Ne.symm here), if_neg here]

/-- Writes change a store if those to one id do. -/
theorem changedBy_iff_patchAll (s : Store) (writes : List Write) :
    s.changedBy writes = true ↔
      ∃ id, (patchAll id (patchesTo id writes) (s.get? id)).2 = true := by
  induction writes generalizing s with
  | nil => simp [changedBy, patchesTo, patchAll]
  | cons w writes ih =>
    have other (id : String) (there : w.id ≠ id) :
        patchAll id (patchesTo id writes) ((s.apply w.id w.patch).1.get? id) =
          patchAll id (patchesTo id (w :: writes)) (s.get? id) := by
      rw [get?_apply, if_neg (Ne.symm there), patchesTo_cons, if_neg there]
    have here : (patchAll w.id (patchesTo w.id (w :: writes)) (s.get? w.id)).2 =
        ((s.apply w.id w.patch).2 ||
          (patchAll w.id (patchesTo w.id writes) ((s.apply w.id w.patch).1.get? w.id)).2) := by
      rw [patchesTo_cons, if_pos rfl, get?_apply, if_pos rfl, apply_changed]
      rfl
    rw [changedBy, Bool.or_eq_true, ih]
    constructor
    · rintro (changed | ⟨id, changed⟩)
      · exact ⟨w.id, by rw [here, changed, Bool.true_or]⟩
      · by_cases same : w.id = id
        · subst same
          exact ⟨w.id, by rw [here, changed, Bool.or_true]⟩
        · exact ⟨id, by rwa [← other id same]⟩
    · rintro ⟨id, changed⟩
      by_cases same : w.id = id
      · subst same
        rw [here, Bool.or_eq_true] at changed
        exact changed.imp_right fun more => ⟨w.id, more⟩
      · exact .inr ⟨id, by rwa [other id same]⟩

end Store

/-- An element shows what its entry holds. -/
theorem View.ofElement_congr {s t : Store} {e : Element} (h : s.get? e.id = t.get? e.id) :
    View.ofElement s e = View.ofElement t e := by
  rw [ofElement, ofElement, Store.value?, Store.value?, Store.isDisabled, Store.isDisabled, h]

end ScoreSheet
