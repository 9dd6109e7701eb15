import ScoreSheet.Validation
set_option autoImplicit false

namespace ScoreSheet.Findings

@[simp] theorem append_violations (f g : Findings) :
    (f.append g).violations = f.violations ++ g.violations := rfl

@[simp] theorem violation_violations (v : Violation) : (violation v).violations = [v] := rfl

variable {α : Type} (check : Nat → α → Findings)

theorem onEach_violations (xs : List α) :
    (onEach check xs).violations = xs.zipIdx.flatMap fun (x, i) => (check i x).violations := by
  have from_any : ∀ (ys : List (α × Nat)) (f : Findings),
      (ys.foldl (fun f (x, i) => f.append (check i x)) f).violations =
        f.violations ++ ys.flatMap fun (x, i) => (check i x).violations := by
    intro ys
    induction ys with
    | nil => simp
    | cons y ys ih =>
      intro f
      rw [List.foldl_cons, ih, append_violations, List.flatMap_cons, List.append_assoc]
  exact from_any xs.zipIdx empty

theorem mem_onEach {xs : List α} {v : Violation} :
    v ∈ (onEach check xs).violations ↔ ∃ i x, xs[i]? = some x ∧ v ∈ (check i x).violations := by
  rw [onEach_violations, List.mem_flatMap]
  constructor
  · rintro ⟨⟨x, i⟩, hx, hv⟩
    exact ⟨i, x, List.mem_zipIdx_iff_getElem?.1 hx, hv⟩
  · rintro ⟨i, x, hx, hv⟩
    exact ⟨(x, i), List.mem_zipIdx_iff_getElem?.2 hx, hv⟩

/-- What is found at one item is found in the list. -/
theorem exists_mem_onEach {xs : List α} {x : α} (hx : x ∈ xs) :
    ∃ i, ∀ v ∈ (check i x).violations, v ∈ (onEach check xs).violations := by
  obtain ⟨i, hi⟩ := List.mem_iff_getElem?.1 hx
  exact ⟨i, fun v hv => (mem_onEach check).2 ⟨i, x, hi, hv⟩⟩

end ScoreSheet.Findings
