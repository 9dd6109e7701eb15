import ScoreSheet.Proofs.Number.ReadBack
set_option autoImplicit false

namespace ScoreSheet.Number

def Decimal.value (d : Decimal) : ℚ := d.digits * 10 ^ d.exponent

theorem Decimal.value_stripZeros (n : ℕ) (d : Decimal) : (d.stripZeros n).value = d.value := by
  induction n generalizing d with
  | zero => rfl
  | succ n ih =>
    rw [stripZeros]
    split
    · rename_i zero
      have digits : (d.digits : ℚ) = (d.digits / 10 : ℕ) * 10 := by
        exact_mod_cast (Nat.div_mul_cancel (Nat.dvd_of_mod_eq_zero zero)).symm
      rw [ih, value, value, digits, zpow_add_one₀ ten_ne_zero]
      ring
    · rfl

namespace Binary
variable {b : Binary}

def value (b : Binary) : ℚ := b.mantissa * 2 ^ b.exponent

theorem covers_value (b : Binary) : b.Covers b.value where
  above := mul_le_mul_of_nonneg_right (by linarith [b.reach_bounds.1]) b.unit_pos.le
  below := mul_le_mul_of_nonneg_right (by linarith) b.unit_pos.le
  even := by
    unfold value
    rw [mul_left_inj' b.unit_pos.ne', mul_left_inj' b.unit_pos.ne']
    rintro (same | same) <;> linarith [b.reach_bounds.1]

theorem value_exact (b : Binary) : b.exact.value = b.value := by
  have ten : (10 : ℚ) = 5 * 2 := by norm_num
  unfold Decimal.value value exact
  rw [zpow_eq_div two_ne_zero b.exponent, zpow_eq_div ten_ne_zero,
    show (min b.exponent 0).toNat = 0 by omega,
    show (-min b.exponent 0).toNat = (-b.exponent).toNat by omega, pow_zero, ten, mul_pow,
    Nat.pow_eq, Nat.pow_eq]
  push_cast
  field_simp

theorem value_floor (h : b.isIntegral = true) : (b.floor : ℚ) = b.value := by
  have product : (b.floor * 2 ^ (-b.exponent).toNat : ℚ) = b.mantissa * 2 ^ b.exponent.toNat := by
    exact_mod_cast floor_mul h
  rw [value, zpow_eq_div two_ne_zero, ← mul_div_assoc, ← product, mul_div_cancel_right₀]
  exact pow_ne_zero _ two_ne_zero

end Binary

theorem compareScaled_iff (a : ℕ) (i : ℤ) (n : ℕ) (j : ℤ) :
    (compareScaled a i n j = .lt ↔ (a * 10 ^ i : ℚ) < n * 2 ^ j) ∧
      (compareScaled a i n j = .eq ↔ (a * 10 ^ i : ℚ) = n * 2 ^ j) ∧
      (compareScaled a i n j = .gt ↔ (n * 2 ^ j : ℚ) < a * 10 ^ i) := by
  have tens : (0 : ℚ) < 10 ^ (-i).toNat := by positivity
  have twos : (0 : ℚ) < 2 ^ (-j).toNat := by positivity
  rw [zpow_eq_div ten_ne_zero, zpow_eq_div two_ne_zero, ← mul_div_assoc, ← mul_div_assoc,
    div_lt_div_iff₀ tens twos, div_lt_div_iff₀ twos tens, div_eq_div_iff tens.ne' twos.ne']
  unfold compareScaled
  rw [Nat.compare_eq_lt, Nat.compare_eq_eq, Nat.compare_eq_gt]
  refine ⟨?_, ?_, ?_⟩ <;> exact_mod_cast Iff.rfl

/-- The test whether a decimal reads back looks for it among the numbers that round to the
magnitude. -/
theorem Binary.readsBack_iff {b : Binary} (pos : 0 < b.mantissa) (d : Decimal) :
    b.readsBack d = true ↔ b.Covers d.value := by
  have quarter : (2 : ℚ) ^ (b.exponent - 2) = 2 ^ b.exponent / 4 := by
    rw [zpow_sub₀ two_ne_zero]
    norm_num
  have low : ((if b.narrowBelow then 4 * b.mantissa - 1 else 4 * b.mantissa - 2 : ℕ) : ℚ) *
      2 ^ (b.exponent - 2) = (b.mantissa - b.reach) * 2 ^ b.exponent := by
    rw [quarter, reach]
    split
    · rw [Nat.cast_sub (by omega)]
      push_cast
      ring
    · rw [Nat.cast_sub (by omega)]
      push_cast
      ring
  have high : ((4 * b.mantissa + 2 : ℕ) : ℚ) * 2 ^ (b.exponent - 2) =
      (b.mantissa + 1 / 2) * 2 ^ b.exponent := by
    rw [quarter]
    push_cast
    ring
  obtain ⟨-, start, beyond⟩ := compareScaled_iff d.digits d.exponent
    (if b.narrowBelow then 4 * b.mantissa - 1 else 4 * b.mantissa - 2) (b.exponent - 2)
  obtain ⟨before, stop, -⟩ := compareScaled_iff d.digits d.exponent (4 * b.mantissa + 2)
    (b.exponent - 2)
  rw [low] at start beyond
  rw [high] at before stop
  unfold readsBack
  simp only [Bool.and_eq_true, Bool.or_eq_true, beq_iff_eq, start, beyond, before, stop]
  constructor
  · rintro ⟨lower, upper⟩
    refine ⟨?_, ?_, ?_⟩
    · exact lower.elim le_of_lt fun edge => edge.2.ge
    · exact upper.elim le_of_lt fun edge => edge.2.le
    · rintro (same | same)
      · exact lower.elim (fun strict => absurd same strict.ne') And.left
      · exact upper.elim (fun strict => absurd same strict.ne) And.left
  · intro covers
    constructor
    · exact covers.above.lt_or_eq.imp_right fun same => ⟨covers.even (.inl same.symm), same.symm⟩
    · exact covers.below.lt_or_eq.imp_right fun same => ⟨covers.even (.inr same), same⟩

theorem Binary.readsBack_of_onGrid? {b : Binary} {tie : Tie} {e : ℤ} {d : Decimal}
    (h : b.onGrid? tie e = some d) : b.readsBack d = true := by
  unfold onGrid? at h
  dsimp only at h
  split at h
  · cases h
  · rename_i low _
    cases h
    exact low
  · rename_i _ high
    cases h
    exact high
  · rename_i low high
    split at h
    · cases h
      exact low
    · cases h
      exact high
    · cases tie with
      | toEven =>
        cases h
        split
        · exact low
        · exact high
      | upward =>
        cases h
        exact high

/-- The shortest digits of a magnitude read back as it. -/
theorem Binary.covers_shortest {b : Binary} (pos : 0 < b.mantissa) (tie : Tie) :
    b.Covers (b.shortest tie).value := by
  unfold shortest
  dsimp only
  rw [Decimal.value_stripZeros]
  cases found : (List.range 17).findSome? fun n : ℕ => b.onGrid? tie (b.scale - 1 - (n : ℤ)) with
  | none =>
    rw [Option.getD_none, value_exact]
    exact b.covers_value
  | some d =>
    obtain ⟨n, -, grid⟩ := List.exists_of_findSome?_eq_some found
    exact (readsBack_iff pos d).1 (readsBack_of_onGrid? grid)

end ScoreSheet.Number
