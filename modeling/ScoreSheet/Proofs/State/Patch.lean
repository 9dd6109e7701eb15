import ScoreSheet.State.Store
set_option autoImplicit false

/-! Applying a patch says whether the store changed. If it says no, the entries are the
same list as before, also where numbers are equal without being the same. -/
namespace ScoreSheet

theorem Patch.update_eq_self {p : Patch} {e : Entry} (h : p.changes e = false) :
    p.update e = e := by
  obtain ⟨hv, hd⟩ := Bool.or_eq_false_iff.1 h
  simp only [Patch.update, hv, hd, Bool.false_eq_true, ↓reduceIte]

namespace Store

theorem patchEntries_eq_self {id : String} {p : Patch} (entries : List Entry)
    (h : (patchEntries id p entries).2 = false) : (patchEntries id p entries).1 = entries := by
  induction entries with
  | nil =>
    unfold patchEntries at h ⊢
    by_cases hc : p.hasContent = true
    · simp only [hc, ↓reduceIte] at h
      cases h
    · simp only [hc, Bool.false_eq_true, ↓reduceIte]
  | cons e es ih =>
    unfold patchEntries at h ⊢
    by_cases he : e.id = id
    · simp only [he, ↓reduceIte] at h ⊢
      rw [Patch.update_eq_self h]
    · simp only [he, ↓reduceIte] at h ⊢
      rw [ih h]

theorem apply_eq_self {s : Store} {id : String} {p : Patch} (h : (s.apply id p).2 = false) :
    (s.apply id p).1 = s :=
  congrArg Store.mk (patchEntries_eq_self s.entries h)

end Store

end ScoreSheet
