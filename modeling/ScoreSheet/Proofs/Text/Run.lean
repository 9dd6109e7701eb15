import ScoreSheet.Number.Numeral
import ScoreSheet.Text.Blank
set_option autoImplicit false

namespace ScoreSheet.Text

variable {p : Char → Bool} {cs rest : List Char}

def EndsRun (p : Char → Bool) (rest : List Char) : Prop := ∀ c ∈ rest.head?, p c = false

theorem EndsRun.nil : EndsRun p [] := by
  intro c hc
  cases hc

theorem EndsRun.cons {c : Char} (h : p c = false) : EndsRun p (c :: rest) := by
  rintro _ ⟨⟩
  exact h

theorem takeWhile_run (hc : ∀ c ∈ cs, p c) (hr : EndsRun p rest) :
    (cs ++ rest).takeWhile p = cs := by
  rw [List.takeWhile_append_of_pos hc]
  cases rest with
  | nil => simp
  | cons c rest => simp [hr c rfl]

theorem dropWhile_run (hc : ∀ c ∈ cs, p c) (hr : EndsRun p rest) :
    (cs ++ rest).dropWhile p = rest := by
  rw [List.dropWhile_append_of_pos hc]
  cases rest with
  | nil => rfl
  | cons c rest => simp [hr c rfl]

theorem isDigit_iff {c : Char} : Number.isDigit c ↔ 48 ≤ c.toNat ∧ c.toNat ≤ 57 := by
  simp only [Number.isDigit, Char.le_def, UInt32.le_iff_toNat_le, Bool.and_eq_true,
    decide_eq_true_eq]
  rfl

theorem isBlank_eq_false {c : Char} (h : 32 < c.toNat) (h' : c.toNat < 0x85) :
    isBlank c = false := by
  simp only [isBlank, blanks, List.any_cons, List.any_nil, Bool.or_false,
    Bool.or_eq_false_iff, Bool.and_eq_false_iff, decide_eq_false_iff_not]
  omega

end ScoreSheet.Text
