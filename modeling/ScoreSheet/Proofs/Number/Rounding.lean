import Mathlib.Algebra.Order.Field.Power
import Mathlib.Algebra.Order.Ring.Rat
import Mathlib.Tactic.FieldSimp
import Mathlib.Tactic.Linarith
import Mathlib.Tactic.NormNum
import Mathlib.Tactic.Ring
import ScoreSheet.Proofs.Number.Finite
set_option autoImplicit false

/-! What is left of a number after its digits have been shifted out says where the number lies
between two neighbours. So a number that lies among those that round to a float is rounded to
this float, ties to even included. -/
namespace ScoreSheet.Number
open Float.Model Float.Model.UnpackedFloat

def rounded (em : ExtendedMantissa) : ℚ := em.mantissa + if em.roundBit then 1 / 2 else 0

/-- Whether the residual bits tell where a number lies above the mantissa: in the half that the
round bit says, and at its lower end unless the sticky bit is set. -/
structure Represents (em : ExtendedMantissa) (v : ℚ) : Prop where
  le : rounded em ≤ v
  lt : v < rounded em + 1 / 2
  sticky : em.stickyBit = false ↔ v = rounded em

theorem rounded_bounds (em : ExtendedMantissa) :
    em.mantissa ≤ rounded em ∧ rounded em ≤ em.mantissa + 1 / 2 := by
  unfold rounded
  split <;> constructor <;> linarith

theorem rounded_shiftRightOne (em : ExtendedMantissa) :
    rounded em.shiftRightOne = em.mantissa / 2 := by
  have digits : (em.mantissa : ℚ) = 2 * (em.mantissa / 2 : ℕ) + (em.mantissa % 2 : ℕ) := by
    exact_mod_cast (Nat.div_add_mod em.mantissa 2).symm
  unfold rounded ExtendedMantissa.shiftRightOne
  dsimp only
  rcases Nat.mod_two_eq_zero_or_one em.mantissa with last | last
  · rw [last, Nat.cast_zero] at digits
    rw [last, if_neg (by decide)]
    linarith
  · rw [last, Nat.cast_one] at digits
    rw [last, if_pos (by decide)]
    linarith

namespace Represents
variable {em : ExtendedMantissa} {v : ℚ}

theorem of_rounded {r : ℚ} (start : rounded em = r) (le : r ≤ v) (lt : v < r + 1 / 2)
    (sticky : em.stickyBit = false ↔ v = r) : Represents em v := by
  subst start
  exact ⟨le, lt, sticky⟩

theorem of_exact (m : ℕ) : Represents (.ofMantissaAndAccuracy m .exact) m :=
  of_rounded (r := m) (add_zero _) le_rfl (by linarith) (iff_of_true rfl rfl)

/-- A quotient with its remainder. -/
theorem fraction (n : ℕ) {d : ℕ} (hd : 0 < d) :
    Represents (.ofMantissaAndAccuracy (n / d) (accuracyOfFraction (n % d) d)) (n / d : ℚ) := by
  have pos : (0 : ℚ) < d := Nat.cast_pos.2 hd
  have whole : (n : ℚ) / d = (n / d : ℕ) + (n % d : ℕ) / d := by
    have division : (n : ℚ) = d * (n / d : ℕ) + (n % d : ℕ) := by
      exact_mod_cast (Nat.div_add_mod n d).symm
    field_simp
    exact division
  have less : ((n % d : ℕ) : ℚ) / d < 1 := by
    rw [div_lt_one₀ pos]
    exact_mod_cast Nat.mod_lt n hd
  rw [whole]
  unfold accuracyOfFraction
  split
  · rename_i none
    rw [none, Nat.cast_zero, zero_div, add_zero]
    exact of_exact (n / d)
  · rename_i some
    have positive : (0 : ℚ) < (n % d : ℕ) / d :=
      div_pos (Nat.cast_pos.2 (Nat.pos_of_ne_zero some)) pos
    generalize (n / d : ℕ) = q
    cases half : compare (2 * (n % d)) d with
    | lt =>
      have below : (n % d : ℕ) / (d : ℚ) < 1 / 2 := by
        rw [div_lt_div_iff₀ pos two_pos, one_mul, mul_comm]
        exact_mod_cast Nat.compare_eq_lt.1 half
      exact of_rounded (r := q) (add_zero _) (by linarith) (by linarith)
        (iff_of_false (fun h => nomatch h) (by linarith))
    | eq =>
      have middle : (n % d : ℕ) / (d : ℚ) = 1 / 2 := by
        rw [div_eq_div_iff pos.ne' two_ne_zero, one_mul, mul_comm]
        exact_mod_cast Nat.compare_eq_eq.1 half
      exact of_rounded (r := q + 1 / 2) rfl (by linarith) (by linarith)
        (iff_of_true rfl (by linarith))
    | gt =>
      have above : 1 / 2 < (n % d : ℕ) / (d : ℚ) := by
        rw [div_lt_div_iff₀ two_pos pos, one_mul, mul_comm]
        exact_mod_cast Nat.compare_eq_gt.1 half
      exact of_rounded (r := q + 1 / 2) rfl (by linarith) (by linarith)
        (iff_of_false (fun h => nomatch h) (by linarith))

theorem floor_le (h : Represents em v) : em.mantissa ≤ v :=
  (rounded_bounds em).1.trans h.le

theorem lt_succ (h : Represents em v) : v < em.mantissa + 1 := by
  have low := h.lt
  have high := (rounded_bounds em).2
  linarith

theorem shiftRightOne (h : Represents em v) : Represents em.shiftRightOne (v / 2) where
  le := by
    rw [rounded_shiftRightOne]
    linarith [h.floor_le]
  lt := by
    rw [rounded_shiftRightOne]
    linarith [h.lt_succ]
  sticky := by
    have low := h.le
    rw [rounded_shiftRightOne, div_left_inj' two_ne_zero]
    change (em.roundBit || em.stickyBit) = false ↔ v = em.mantissa
    rw [Bool.or_eq_false_iff, h.sticky]
    unfold rounded at low ⊢
    cases bit : em.roundBit with
    | false =>
      rw [if_neg Bool.false_ne_true, add_zero]
      exact and_iff_right rfl
    | true =>
      rw [bit, if_pos rfl] at low
      refine iff_of_false (fun h => nomatch h.1) fun same => ?_
      linarith

theorem shiftRight (h : Represents em v) (k : ℕ) : Represents (em >>> k) (v / 2 ^ k) := by
  change Represents (k.repeat ExtendedMantissa.shiftRightOne em) _
  induction k with
  | zero =>
    rw [pow_zero, div_one]
    exact h
  | succ k ih =>
    rw [pow_succ, ← div_div]
    exact ih.shiftRightOne

end Represents

/-- Whether a whole number is the nearest one, and even if there are two. -/
structure Nearest (v : ℚ) (n : ℕ) : Prop where
  above : (n : ℚ) - 1 / 2 ≤ v
  below : v ≤ n + 1 / 2
  even : v = n - 1 / 2 ∨ v = n + 1 / 2 → n % 2 = 0

theorem Nearest.bounds {v : ℚ} {m n : ℕ} (near : Nearest v n) (low : (m : ℚ) ≤ v)
    (high : v < m + 1) : m ≤ n ∧ n ≤ m + 1 := by
  have above := near.above
  have below := near.below
  constructor
  · have less : (m : ℚ) < n + 1 := by linarith
    exact Nat.le_of_lt_succ (by exact_mod_cast less)
  · have less : (n : ℚ) < m + 1 + 1 := by linarith
    exact Nat.le_of_lt_succ (by exact_mod_cast less)

theorem Represents.roundedMantissa {em : ExtendedMantissa} {v : ℚ} (h : Represents em v) {n : ℕ}
    (near : Nearest v n) : em.roundedMantissa = n := by
  have bounds := near.bounds h.floor_le h.lt_succ
  have above := near.above
  have below := near.below
  have even := near.even
  obtain ⟨m, r, s⟩ := em
  obtain ⟨low, high, sticky⟩ := h
  unfold rounded at low high sticky
  dsimp only at low high sticky bounds
  cases r with
  | false =>
    rw [if_neg Bool.false_ne_true] at high
    have less : (n : ℚ) < m + 1 := by linarith
    replace less : n < m + 1 := by exact_mod_cast less
    obtain rfl : m = n := by omega
    cases s <;> rfl
  | true =>
    rw [if_pos rfl] at low sticky
    cases s with
    | false =>
      have middle := sticky.1 rfl
      change m + m % 2 = n
      rcases Nat.lt_or_ge m n with greater | less
      · obtain rfl : n = m + 1 := by omega
        have last := even (.inl (by rw [middle]; push_cast; ring))
        omega
      · obtain rfl : n = m := by omega
        have last := even (.inr middle)
        omega
    | true =>
      have beyond : (m : ℚ) + 1 / 2 ≠ v := fun same => nomatch sticky.2 same.symm
      have greater : (m : ℚ) < n := by
        have strict := lt_of_le_of_ne low beyond
        linarith
      replace greater : m < n := by exact_mod_cast greater
      change m + 1 = n
      omega

namespace Binary

/-- The magnitude of a float other than zero, with its digits as far to the left as they go. -/
structure Canonical (b : Binary) : Prop where
  pos : 0 < b.mantissa
  short : b.mantissa < 2 ^ 53
  low : -1074 ≤ b.exponent
  high : b.exponent ≤ 971
  full : -1074 < b.exponent → 2 ^ 52 ≤ b.mantissa
  narrow : -1074 < b.exponent → b.mantissa = 2 ^ 52 → b.narrowBelow = true
  wide : b.narrowBelow = true → b.mantissa = 2 ^ 52 ∧ -1074 < b.exponent

/-- How far below a magnitude, in units of its last digit, numbers round to it. -/
def reach (b : Binary) : ℚ := if b.narrowBelow then 1 / 4 else 1 / 2

structure Covers (b : Binary) (v : ℚ) : Prop where
  above : (b.mantissa - b.reach) * 2 ^ b.exponent ≤ v
  below : v ≤ (b.mantissa + 1 / 2) * 2 ^ b.exponent
  even : v = (b.mantissa - b.reach) * 2 ^ b.exponent ∨ v = (b.mantissa + 1 / 2) * 2 ^ b.exponent →
    b.mantissa % 2 = 0

end Binary

section Exponents
variable {m : ℕ} {v : ℚ} {p : ℤ}

/-- The digits of the mantissa end where those of the number do. -/
theorem log2_lt_of_lt (h : (m : ℚ) ≤ v) (pos : 0 < m) (hv : v < 2 ^ p) : (m.log2 : ℤ) < p := by
  have low : ((2 ^ m.log2 : ℕ) : ℚ) ≤ m := by exact_mod_cast Nat.log2_self_le pos.ne'
  have less : (2 : ℚ) ^ (m.log2 : ℤ) < 2 ^ p := by
    rw [zpow_natCast]
    push_cast at low
    linarith
  exact (zpow_lt_zpow_iff_right₀ one_lt_two).1 less

theorem le_log2_of_le (h : v < m + 1) (hv : 2 ^ p ≤ v) : p ≤ m.log2 := by
  rcases lt_or_ge p 0 with negative | positive
  · omega
  · obtain ⟨n, rfl⟩ := Int.eq_ofNat_of_zero_le positive
    rw [zpow_natCast] at hv
    have less : ((2 ^ n : ℕ) : ℚ) < m + 1 := by
      push_cast
      linarith
    replace less : 2 ^ n < m + 1 := by exact_mod_cast less
    have pos : m ≠ 0 := by
      have one := Nat.two_pow_pos n
      omega
    exact_mod_cast (Nat.le_log2 pos).2 (Nat.le_of_lt_succ less)

end Exponents

theorem two_zpow_add (n : ℕ) (e : ℤ) : (2 : ℚ) ^ ((n : ℤ) + e) = 2 ^ n * 2 ^ e := by
  rw [zpow_add₀ two_ne_zero, zpow_natCast]

theorem le_div_two_zpow {v : ℚ} {p e : ℤ} (h : 2 ^ p ≤ v) : (2 : ℚ) ^ (p - e) ≤ v / 2 ^ e := by
  rw [zpow_sub₀ two_ne_zero]
  exact div_le_div_of_nonneg_right h (zpow_pos two_pos e).le

theorem div_two_zpow_lt {v : ℚ} {p e : ℤ} (h : v < 2 ^ p) : v / 2 ^ e < (2 : ℚ) ^ (p - e) := by
  rw [zpow_sub₀ two_ne_zero]
  exact div_lt_div_of_pos_right h (zpow_pos two_pos e)

namespace Binary
variable {b : Binary} {v : ℚ}

theorem reach_bounds (b : Binary) : 1 / 4 ≤ b.reach ∧ b.reach ≤ 1 / 2 := by
  unfold reach
  split <;> norm_num

theorem unit_pos (b : Binary) : (0 : ℚ) < 2 ^ b.exponent := zpow_pos two_pos _

namespace Covers

theorem lt_two_zpow (h : b.Covers v) (hb : b.Canonical) :
    v < 2 ^ (((53 : ℕ) : ℤ) + b.exponent) := by
  have short : (b.mantissa : ℚ) + 1 ≤ 2 ^ 53 := by exact_mod_cast hb.short
  have positive := b.unit_pos
  have below := h.below
  rw [two_zpow_add]
  nlinarith

/-- Numbers that round to a float with all digits have as many, except those just below a power
of two. -/
theorem two_zpow_le (h : b.Covers v) (full : 2 ^ 52 ≤ b.mantissa) :
    2 ^ (((51 : ℕ) : ℤ) + b.exponent) ≤ v := by
  have digits : (2 : ℚ) ^ 52 ≤ b.mantissa := by exact_mod_cast full
  have positive := b.unit_pos
  have above := h.above
  have reach := b.reach_bounds.2
  rw [two_zpow_add]
  nlinarith

theorem mantissa_of_lt (h : b.Covers v) (hb : b.Canonical) (normal : -1074 < b.exponent)
    (less : v < 2 ^ (((52 : ℕ) : ℤ) + b.exponent)) : b.mantissa = 2 ^ 52 := by
  have positive := b.unit_pos
  have above := h.above
  have reach := b.reach_bounds.2
  by_contra other
  have greater : 2 ^ 52 + 1 ≤ b.mantissa := Nat.lt_of_le_of_ne (hb.full normal) (Ne.symm other)
  have digits : (2 : ℚ) ^ 52 + 1 ≤ b.mantissa := by exact_mod_cast greater
  rw [two_zpow_add] at less
  nlinarith

/-- On the grid of the float, it is the nearest one. -/
theorem nearest (h : b.Covers v) (hb : b.Canonical) : Nearest (v / 2 ^ b.exponent) b.mantissa where
  above := by
    rw [le_div_iff₀ b.unit_pos]
    refine le_trans (mul_le_mul_of_nonneg_right ?_ b.unit_pos.le) h.above
    linarith [b.reach_bounds.2]
  below := (div_le_iff₀ b.unit_pos).2 h.below
  even := by
    rw [div_eq_iff b.unit_pos.ne', div_eq_iff b.unit_pos.ne']
    cases narrow : b.narrowBelow with
    | false =>
      have half : b.reach = 1 / 2 := by rw [reach, narrow, if_neg Bool.false_ne_true]
      exact half ▸ h.even
    | true =>
      rw [(hb.wide narrow).1]
      exact fun _ => by decide

/-- On the grid below a power of two, that power is the nearest number. -/
theorem nearest_below (h : b.Covers v) (hb : b.Canonical) (normal : -1074 < b.exponent)
    (less : v < 2 ^ (((52 : ℕ) : ℤ) + b.exponent)) :
    Nearest (v / 2 ^ (b.exponent - 1)) (2 ^ 53) := by
  have power := h.mantissa_of_lt hb normal less
  have quarter : b.reach = 1 / 4 := by rw [reach, if_pos (hb.narrow normal power)]
  have low := (le_div_iff₀ b.unit_pos).2 h.above
  have high := (div_lt_iff₀ b.unit_pos).2 ((two_zpow_add 52 _).symm ▸ less)
  rw [power, quarter] at low
  have twice : v / 2 ^ (b.exponent - 1) = 2 * (v / 2 ^ b.exponent) := by
    rw [zpow_sub₀ two_ne_zero, zpow_one]
    field_simp
  rw [twice]
  push_cast at low ⊢
  constructor
  · linarith
  · linarith
  · exact fun _ => by decide

end Covers

end Binary

section Round
variable {b : Binary} {v : ℚ} {m : ℕ} {e : ℤ} {acc : Accuracy}

/-- Rounding takes the nearest number on the grid of its width, and drops a zero if this one has
a digit more than fits. -/
theorem roundWithAccuracy_of_nearest (s : Sign) {t : ℤ} {r k : ℕ}
    (exact : Represents (.ofMantissaAndAccuracy m acc) (v / 2 ^ e))
    (grid : max e (max ((m.log2 : ℤ) + 1 + e - 53) (-1074)) = t) (near : Nearest (v / 2 ^ t) r)
    (final : max t (max ((r.log2 : ℤ) + 1 + t - 53) (-1074)) = t + k) (pos : 0 < r / 2 ^ k) :
    roundWithAccuracy .binary64 s m e acc = .finite s (r / 2 ^ k) (t + k) pos := by
  obtain ⟨j, first, place⟩ := shiftToTargetExponent_eq m e acc
  rw [grid] at place
  have scaled : v / 2 ^ e / 2 ^ j = v / 2 ^ t := by
    rw [div_div, ← zpow_natCast, ← zpow_add₀ two_ne_zero, place]
  have mantissa : (ExtendedMantissa.ofMantissaAndAccuracy m acc >>> j).roundedMantissa = r :=
    (exact.shiftRight j).roundedMantissa (scaled ▸ near)
  obtain ⟨k', second, place', again⟩ := shiftToTargetExponent_spec r t .exact
  obtain rfl : k' = k := by omega
  unfold roundWithAccuracy
  dsimp only
  rw [first, place]
  dsimp only
  rw [mantissa, dif_neg (second ▸ pos.ne')]
  exact finite_congr rfl second place'

/-- A number that lies among those that round to a magnitude is rounded to it, if its mantissa
has at least as many digits as fit. -/
theorem roundWithAccuracy_of_covers (s : Sign) (hb : b.Canonical) (h : b.Covers v)
    (exact : Represents (.ofMantissaAndAccuracy m acc) (v / 2 ^ e))
    (wide : 52 ≤ m.log2 ∨ e ≤ -1074) :
    roundWithAccuracy .binary64 s m e acc = .finite s b.mantissa b.exponent hb.pos := by
  have digits : b.mantissa.log2 < 53 := (Nat.log2_lt hb.pos.ne').2 hb.short
  have low := exact.floor_le
  have high := exact.lt_succ
  rw [mantissa_ofMantissaAndAccuracy] at low high
  have lowest := hb.low
  have top : 0 < m → (m.log2 : ℤ) < 53 + b.exponent - e := fun pos =>
    log2_lt_of_lt low pos (div_two_zpow_lt (h.lt_two_zpow hb))
  have none : m = 0 → m.log2 = 0 := by
    rintro rfl
    rfl
  -- A number just below a power of two has its last digit one place further right, where rounding
  -- gives the power a digit too many.
  by_cases inside : -1074 < b.exponent → 2 ^ (((52 : ℕ) : ℤ) + b.exponent) ≤ v
  · have bottom : -1074 < b.exponent → 52 + b.exponent - e ≤ (m.log2 : ℤ) := fun normal =>
      le_log2_of_le high (le_div_two_zpow (inside normal))
    have round := roundWithAccuracy_of_nearest s (t := b.exponent) (k := 0) exact (by omega)
      (h.nearest hb) (by omega) (by rw [pow_zero, Nat.div_one]; exact hb.pos)
    rw [round]
    exact finite_congr rfl (by rw [pow_zero, Nat.div_one]) (add_zero _)
  · obtain ⟨normal, below⟩ := Classical.not_imp.1 inside
    have less := lt_of_not_ge below
    have bottom : 51 + b.exponent - e ≤ (m.log2 : ℤ) :=
      le_log2_of_le high (le_div_two_zpow (h.two_zpow_le (hb.full normal)))
    have top : 0 < m → (m.log2 : ℤ) < 52 + b.exponent - e := fun pos =>
      log2_lt_of_lt low pos (div_two_zpow_lt less)
    have width : (2 ^ 53).log2 = 53 := Nat.log2_two_pow
    have round := roundWithAccuracy_of_nearest s (t := b.exponent - 1) (k := 1) exact (by omega)
      (h.nearest_below hb normal less) (by omega) (by decide)
    rw [round]
    exact finite_congr rfl (h.mantissa_of_lt hb normal less).symm (by omega)

end Round

end ScoreSheet.Number
