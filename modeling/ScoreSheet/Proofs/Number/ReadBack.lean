import ScoreSheet.Proofs.Number.Rounding
import ScoreSheet.Proofs.Number.Zeros
set_option autoImplicit false

/-! Products and quotients are rounded once, so a decimal that lies among the numbers that round to
a float is read as this float, whether it is a small one, whose digits and power of ten are
floats of their own, or not. -/
namespace ScoreSheet.Number
open Float.Model Float.Model.UnpackedFloat

section Operations
variable {b : Binary} {m₁ m₂ : ℕ} {e₁ e₂ : ℤ} {p₁ : 0 < m₁} {p₂ : 0 < m₂}

theorem mul_of_covers (s₁ s₂ : Sign) (hb : b.Canonical)
    (h : b.Covers (m₁ * 2 ^ e₁ * (m₂ * 2 ^ e₂))) (wide : 2 ^ 52 ≤ m₁) :
    UnpackedFloat.mul .binary64 (.finite s₁ m₁ e₁ p₁) (.finite s₂ m₂ e₂ p₂) =
      .finite (s₁ * s₂) b.mantissa b.exponent hb.pos := by
  refine roundWithAccuracy_of_covers _ hb h ?_ (.inl ?_)
  · have product : (m₁ * 2 ^ e₁ * (m₂ * 2 ^ e₂) : ℚ) / 2 ^ (e₁ + e₂) = (m₁ * m₂ : ℕ) := by
      rw [zpow_add₀ two_ne_zero]
      push_cast
      field_simp
    rw [product]
    exact .of_exact _
  · exact (Nat.le_log2 (Nat.mul_pos p₁ p₂).ne').2 (wide.trans (Nat.le_mul_of_pos_right _ p₂))

theorem div_of_covers (s₁ s₂ : Sign) (hb : b.Canonical)
    (h : b.Covers (m₁ * 2 ^ e₁ / (m₂ * 2 ^ e₂))) :
    UnpackedFloat.div .binary64 (.finite s₁ m₁ e₁ p₁) (.finite s₂ m₂ e₂ p₂) =
      .finite (s₁ / s₂) b.mantissa b.exponent hb.pos := by
  obtain ⟨k, t, core, hk, ht⟩ := divCore_eq m₁ m₂ e₁ e₂
  unfold UnpackedFloat.div
  dsimp only
  rw [core]
  refine roundWithAccuracy_of_covers _ hb h ?_ ?_
  · have quotient : (m₁ * 2 ^ e₁ / (m₂ * 2 ^ e₂) : ℚ) / 2 ^ t = (m₁ * 2 ^ k : ℕ) / m₂ := by
      rw [show e₁ = k + (t + e₂) by omega, two_zpow_add, zpow_add₀ two_ne_zero]
      push_cast
      field_simp
    rw [quotient]
    exact .fraction _ p₂
  -- Unless the place is the last one, the dividend is shifted until the quotient has all digits.
  · rcases Int.lt_or_le (-1074) t with normal | least
    · have shift : 53 + m₂.log2 ≤ m₁.log2 + k := by omega
      have low := Nat.log2_self_le p₁.ne'
      have high : m₂ < 2 ^ (m₂.log2 + 1) := Nat.lt_log2_self
      have quotient : 2 ^ 52 ≤ m₁ * 2 ^ k / m₂ := by
        rw [Nat.le_div_iff_mul_le p₂]
        calc 2 ^ 52 * m₂ ≤ 2 ^ 52 * 2 ^ (m₂.log2 + 1) := Nat.mul_le_mul_left _ high.le
          _ = 2 ^ (53 + m₂.log2) := by rw [← Nat.pow_add]; congr 1; omega
          _ ≤ 2 ^ (m₁.log2 + k) := Nat.pow_le_pow_right two_pos shift
          _ ≤ m₁ * 2 ^ k := by rw [Nat.pow_add]; exact Nat.mul_le_mul_right _ low
      exact .inl ((Nat.le_log2 (Nat.lt_of_lt_of_le (Nat.two_pow_pos 52) quotient).ne').2 quotient)
    · exact .inr least

end Operations

theorem zpow_eq_div {a : ℚ} (h : a ≠ 0) (e : ℤ) : a ^ e = a ^ e.toNat / a ^ (-e).toNat := by
  rw [← zpow_natCast, ← zpow_natCast, ← zpow_sub₀ h]
  congr 1
  omega

def isTenPow (k : ℕ) : UnpackedFloat → Bool
  | .finite .positive m e _ => m * 2 ^ e.toNat == 10 ^ k * 2 ^ (-e).toNat
  | _ => false

theorem isTenPow_table : ∀ k (h : k < Float.exactlyRepresentablePowersOfTen.size),
    isTenPow k Float.exactlyRepresentablePowersOfTen[k].toModel.unpack = true := by
  decide +kernel

theorem exists_of_isTenPow {k : ℕ} {u : UnpackedFloat} (h : isTenPow k u = true) : ∃ m e pos,
    u = .finite .positive m e pos ∧ (m * 2 ^ e : ℚ) = 10 ^ k := by
  cases u with
  | finite s m e pos =>
    cases s with
    | positive =>
      refine ⟨m, e, pos, rfl, ?_⟩
      have value : (m * 2 ^ e.toNat : ℚ) = 10 ^ k * 2 ^ (-e).toNat := by exact_mod_cast eq_of_beq h
      rw [zpow_eq_div two_ne_zero, ← mul_div_assoc, value, mul_div_cancel_right₀]
      exact pow_ne_zero _ two_ne_zero
    | negative => cases h
  | _ => cases h

section Decimals
variable {b : Binary} {m k : ℕ}

theorem significand_value {n : ℕ} (hn : n < 2 ^ 53) (h : 0 < n) :
    (significand n * 2 ^ ((n.log2 : ℤ) - 52) : ℚ) = n := by
  have short : n.log2 < 53 := (Nat.log2_lt h.ne').2 hn
  unfold significand
  push_cast
  rw [mul_assoc, ← zpow_natCast, ← zpow_add₀ two_ne_zero,
    show ((52 - n.log2 : ℕ) : ℤ) + (n.log2 - 52) = 0 by omega, zpow_zero, mul_one]

def decimalExponent (negative : Bool) (k : ℕ) : ℤ := if negative then -k else k

theorem ofScientific_eq (negative : Bool) (hm : m < 2 ^ 53) (hk : k ≤ 22) :
    ∃ power : Float, isTenPow k power.toModel.unpack = true ∧
      Float.ofScientific m negative k =
        if negative then m.toUInt64.toFloat / power else m.toUInt64.toFloat * power := by
  refine ⟨_, isTenPow_table k (Nat.lt_succ_of_le hk), ?_⟩
  unfold Float.ofScientific
  exact dif_pos ⟨hm, hk⟩

theorem ofScientific_fast (hb : b.Canonical) (negative : Bool) (pos : 0 < m) (hm : m < 2 ^ 53)
    (hk : k ≤ 22) (h : b.Covers (m * 10 ^ decimalExponent negative k)) :
    (Float.ofScientific m negative k).toModel =
      .pack (.finite .positive b.mantissa b.exponent hb.pos) := by
  obtain ⟨power, table, result⟩ := ofScientific_eq negative hm hk
  obtain ⟨m', e', pos', unpacked, value⟩ := exists_of_isTenPow table
  have whole := unpack_toFloat pos hm
  rw [result]
  cases negative with
  | true =>
    change Float.Model.pack (UnpackedFloat.div .binary64 m.toUInt64.toFloat.toModel.unpack
      power.toModel.unpack) = _
    rw [whole, unpacked]
    refine congrArg Float.Model.pack (div_of_covers .positive .positive hb ?_)
    rwa [significand_value hm pos, value, div_eq_mul_inv, ← zpow_natCast, ← zpow_neg]
  | false =>
    change Float.Model.pack (UnpackedFloat.mul .binary64 m.toUInt64.toFloat.toModel.unpack
      power.toModel.unpack) = _
    rw [whole, unpacked]
    refine congrArg Float.Model.pack (mul_of_covers .positive .positive hb ?_
      (significand_bounds pos hm).1)
    rwa [significand_value hm pos, value, ← zpow_natCast]

theorem ten_ne_zero : (10 : ℚ) ≠ 0 := by norm_num

theorem ofScientific_slow (hb : b.Canonical) {e : ℤ} (pos : 0 < m) (h : b.Covers (m * 10 ^ e))
    (low : -2048 - (m.log2 : ℤ) ≤ e) (high : e ≤ 2048) :
    UnpackedFloat.ofScientific .binary64 m e =
      .finite .positive b.mantissa b.exponent hb.pos := by
  have bits : (2 : Int) ^ Format.exponentBits .binary64 = 2048 := rfl
  unfold UnpackedFloat.ofScientific
  rw [bits, dif_neg pos.ne', if_neg (by omega), if_neg (by omega)]
  rcases Int.lt_or_le e 0 with negative | positive
  · rw [if_neg (by omega)]
    refine div_of_covers .positive .positive hb ?_
    refine Eq.mp (congrArg b.Covers ?_) h
    rw [zpow_eq_div ten_ne_zero e, Int.toNat_of_nonpos (by omega : e ≤ 0)]
    push_cast
    rw [mul_one, mul_one, pow_zero, mul_one_div]
  · rw [if_pos positive]
    have width : m <<< Format.mantissaBits .binary64 = m * 2 ^ 53 := Nat.shiftLeft_eq _ _
    refine mul_of_covers .positive .positive hb ?_ ?_
    · rw [width]
      refine Eq.mp (congrArg b.Covers ?_) h
      rw [zpow_eq_div ten_ne_zero e, Int.toNat_of_nonpos (by omega : -e ≤ 0),
        show (-(Format.mantissaBits .binary64 : ℤ)) = -((53 : ℕ) : ℤ) from rfl, zpow_neg,
        zpow_natCast]
      push_cast
      field_simp
      norm_num
    · rw [width]
      exact (Nat.pow_le_pow_right two_pos (by decide)).trans (Nat.le_mul_of_pos_left _ pos)

theorem digitCount_le_iff {n : ℕ} (h : 0 < k) : digitCount n ≤ k ↔ n < 10 ^ k :=
  Nat.length_toDigits_le_iff (by decide) h

/-- The place of the leading digit of a decimal is the size of its value. -/
theorem ten_zpow_bounds (pos : 0 < m) (e : ℤ) :
    (10 : ℚ) ^ (digitCount m + e - 1) ≤ m * 10 ^ e ∧
      (m * 10 ^ e : ℚ) < 10 ^ (digitCount m + e) := by
  obtain ⟨n, hn⟩ : ∃ n, digitCount m = n + 1 :=
    Nat.exists_eq_succ_of_ne_zero Nat.length_toDigits_pos.ne'
  have unit : (0 : ℚ) < 10 ^ e := zpow_pos (by norm_num) e
  have low : 10 ^ n ≤ m := by
    rcases Nat.eq_zero_or_pos n with rfl | some
    · exact pos
    · exact Nat.le_of_not_lt fun less => by
        have fits := (digitCount_le_iff some).2 less
        omega
  have high : m < 10 ^ (n + 1) := (digitCount_le_iff n.succ_pos).1 hn.le
  have low' : (10 : ℚ) ^ n ≤ m := by exact_mod_cast low
  have high' : (m : ℚ) < 10 ^ (n + 1) := by exact_mod_cast high
  rw [hn, show ((n + 1 : ℕ) : ℤ) + e - 1 = n + e by omega, zpow_add₀ ten_ne_zero, zpow_natCast,
    zpow_add₀ ten_ne_zero, zpow_natCast]
  exact ⟨mul_le_mul_of_nonneg_right low' unit.le, mul_lt_mul_of_pos_right high' unit⟩

theorem Binary.Covers.range {v : ℚ} (h : b.Covers v) (hb : b.Canonical) :
    2 ^ (-1075 : ℤ) ≤ v ∧ v < 2 ^ (1024 : ℤ) := by
  have low := hb.low
  have high := hb.high
  constructor
  · have one : (1 : ℚ) ≤ b.mantissa := by exact_mod_cast hb.pos
    have half : (1 / 2 : ℚ) ≤ b.mantissa - b.reach := by linarith [b.reach_bounds.2]
    calc (2 : ℚ) ^ (-1075 : ℤ) ≤ 2 ^ (-1 + b.exponent) :=
          zpow_le_zpow_right₀ one_le_two (by omega)
      _ = 1 / 2 * 2 ^ b.exponent := by rw [zpow_add₀ two_ne_zero, zpow_neg_one, one_div]
      _ ≤ (b.mantissa - b.reach) * 2 ^ b.exponent := mul_le_mul_of_nonneg_right half b.unit_pos.le
      _ ≤ v := h.above
  · exact (h.lt_two_zpow hb).trans_le (zpow_le_zpow_right₀ one_le_two (by omega))

theorem size_bounds (hb : b.Canonical) {e : ℤ} (pos : 0 < m) (h : b.Covers (m * 10 ^ e)) :
    -324 < digitCount m + e ∧ digitCount m + e ≤ 309 := by
  obtain ⟨least, greatest⟩ := h.range hb
  obtain ⟨low, high⟩ := ten_zpow_bounds pos e
  have one_lt : (1 : ℚ) < 10 := by norm_num
  constructor
  · have tiny : (10 : ℚ) ^ (-324 : ℤ) ≤ 2 ^ (-1075 : ℤ) := by
      rw [zpow_neg, zpow_neg]
      refine inv_anti₀ (by positivity) ?_
      exact_mod_cast (show 2 ^ 1075 ≤ 10 ^ 324 by decide +kernel)
    exact (zpow_lt_zpow_iff_right₀ one_lt).1 ((tiny.trans least).trans_lt high)
  · have huge : (2 : ℚ) ^ (1024 : ℤ) ≤ 10 ^ (309 : ℤ) := by
      exact_mod_cast (show 2 ^ 1024 ≤ 10 ^ 309 by decide +kernel)
    have less := (zpow_lt_zpow_iff_right₀ one_lt).1 (low.trans_lt (greatest.trans_le huge))
    omega

/-- A decimal that lies among the numbers that round to a float is read as this float. -/
theorem ofDecimal_of_covers (hb : b.Canonical) {e : ℤ} (pos : 0 < m) (h : b.Covers (m * 10 ^ e)) :
    (ofDecimal m e).toModel = .pack (.finite .positive b.mantissa b.exponent hb.pos) := by
  obtain ⟨low, high⟩ := size_bounds hb pos h
  have some : 0 < digitCount m := Nat.length_toDigits_pos
  have few : digitCount m ≤ m.log2 + 1 := (digitCount_le_iff (Nat.succ_pos _)).2
    (Nat.lt_log2_self.trans_le (Nat.pow_le_pow_left (by decide) _))
  have exponent : decimalExponent (decide (e < 0)) e.natAbs = e := by
    unfold decimalExponent
    split <;> simp only [decide_eq_true_eq] at * <;> omega
  unfold ofDecimal
  dsimp only
  rw [if_neg pos.ne', if_neg (by omega), if_neg (by omega)]
  by_cases small : m < 2 ^ 53 ∧ e.natAbs ≤ 22
  · exact ofScientific_fast hb _ pos small.1 small.2 (exponent.symm ▸ h)
  · have slow : Float.ofScientific m (decide (e < 0)) e.natAbs =
        .ofModel (Float.Model.ofScientific m e) := by
      unfold Float.ofScientific
      rw [dif_neg small]
      dsimp only
      congr 2
    rw [slow]
    exact congrArg Float.Model.pack (ofScientific_slow hb pos h (by omega) (by omega))

end Decimals

theorem ofFields_canonical {e f : ℕ} (he : e < 2047) (hf : f < 2 ^ 52)
    (pos : 0 < (Binary.ofFields e f).mantissa) : (Binary.ofFields e f).Canonical := by
  unfold Binary.ofFields at pos ⊢
  split at pos
  · rename_i subnormal
    rw [if_pos subnormal]
    exact ⟨pos, hf.trans (by decide), le_refl (-1074 : ℤ), show (-1074 : ℤ) ≤ 971 by decide,
      fun h => absurd h (lt_irrefl (-1074 : ℤ)), fun h => absurd h (lt_irrefl (-1074 : ℤ)),
      fun h => nomatch h⟩
  · rename_i normal
    rw [if_neg normal]
    refine ⟨pos, Nat.add_lt_add_left hf (2 ^ 52), ?low, ?high, fun _ => Nat.le_add_right _ _,
      ?narrow, ?wide⟩
    case low | high =>
      dsimp only
      omega
    case narrow =>
      dsimp only
      intro inside power
      have none : f = 0 := Nat.add_eq_left.1 power
      rw [none, decide_eq_true (show 1 < e by omega)]
      rfl
    case wide =>
      dsimp only
      rw [Bool.and_eq_true, beq_iff_eq, decide_eq_true_eq]
      rintro ⟨rfl, inside⟩
      exact ⟨rfl, by omega⟩

theorem unpack_pack_subnormal (s : Sign) {m : ℕ} (hm : m < 2 ^ 52) (pos : 0 < m) :
    UnpackedFloat.unpack .binary64 (UnpackedFloat.pack .binary64 (.finite s m (-1074) pos)) =
      .finite s m (-1074) pos := by
  rw [pack_subnormal s hm pos]
  have unpacked := unpacksTo_unpack (packComponents .binary64 s 0#11 (BitVec.ofNat 52 m))
  have exponent : unpackExponent (packComponents .binary64 s 0#11 (BitVec.ofNat 52 m)) = 0#11 :=
    unpackExponent_packComponents
  have fraction : (unpackMantissa (packComponents .binary64 s 0#11 (BitVec.ofNat 52 m))).toNat = m :=
    (congrArg BitVec.toNat unpackMantissa_packComponents).trans
      ((BitVec.toNat_ofNat _ _).trans (Nat.mod_eq_of_lt hm))
  generalize UnpackedFloat.unpack .binary64 _ = u at unpacked ⊢
  cases unpacked with
  | infinity top => exact absurd (exponent.symm.trans top) (by decide)
  | notANumber top => exact absurd (exponent.symm.trans top) (by decide)
  | zero bottom empty =>
    rw [empty] at fraction
    exact absurd fraction.symm pos.ne'
  | subnormal =>
    refine finite_congr ?_ fraction rfl
    rw [unpackSign_packComponents, ofBitVec_toBitVec]
  | normal not_bottom => exact absurd exponent not_bottom

theorem Binary.Canonical.unpack_pack {b : Binary} (hb : b.Canonical) (s : Sign) :
    Float.Model.unpack (.pack (.finite s b.mantissa b.exponent hb.pos)) =
      .finite s b.mantissa b.exponent hb.pos := by
  rcases Nat.lt_or_ge b.mantissa (2 ^ 52) with short | full
  · have lowest : b.exponent = -1074 := by
      have low := hb.low
      have digits := hb.full
      omega
    rw [finite_congr rfl rfl lowest]
    exact unpack_pack_subnormal s short hb.pos
  · exact unpack_pack_normal s (log2_of_bounds full hb.short) hb.low hb.high hb.pos

theorem ofBitVec_unpackSign (b : BitVec (Format.numBits .binary64)) :
    Sign.ofBitVec (unpackSign b) = if 2 ^ 63 ≤ b.toNat then .negative else .positive := by
  have bit := toNat_unpackSign b
  have bound : b.toNat < 2 ^ 64 := b.isLt
  rcases BitVec.eq_zero_or_eq_one (unpackSign b) with zero | one
  · rw [zero] at bit ⊢
    have small : b.toNat / 2 ^ 63 % 2 = 0 := bit.symm
    rw [if_neg (by omega)]
    rfl
  · rw [one] at bit ⊢
    have large : b.toNat / 2 ^ 63 % 2 = 1 := bit.symm
    rw [if_pos (by omega)]
    rfl

theorem UnpacksTo.eq_finite {b : BitVec (Format.numBits .binary64)} {u : UnpackedFloat}
    (h : UnpacksTo b u) (inside : (unpackExponent b).toNat ≠ 2047) (pos : 0 <
      (Binary.ofFields (unpackExponent b).toNat (unpackMantissa b).toNat).mantissa) :
    u = .finite (Sign.ofBitVec (unpackSign b))
      (Binary.ofFields (unpackExponent b).toNat (unpackMantissa b).toNat).mantissa
      (Binary.ofFields (unpackExponent b).toNat (unpackMantissa b).toNat).exponent pos := by
  cases h with
  | infinity top => exact absurd (congrArg BitVec.toNat top) inside
  | notANumber top => exact absurd (congrArg BitVec.toNat top) inside
  | zero bottom empty =>
    rw [bottom, empty] at pos
    exact absurd pos (by decide)
  | subnormal bottom =>
    have subnormal : (unpackExponent b).toNat = 0 := congrArg BitVec.toNat bottom
    refine finite_congr rfl ?_ ?_
    all_goals
      rw [subnormal]
      rfl
  | normal not_bottom =>
    have normal : (unpackExponent b).toNat ≠ 0 := fun h => not_bottom (BitVec.toNat_inj.1 h)
    unfold Binary.ofFields
    exact finite_congr rfl (by rw [if_neg normal]; rfl) (by rw [if_neg normal])

/-- The parts of a float other than zero are its sign, mantissa and exponent. -/
theorem unpack_of_parts {x : Float} {negative : Bool} {b : Binary}
    (h : parts x = .finite negative b) (pos : 0 < b.mantissa) : b.Canonical ∧
      x.toModel.unpack =
        .finite (if negative then .negative else .positive) b.mantissa b.exponent pos := by
  have finite : isFinite x = true := by
    unfold isFinite
    rw [h]
  obtain ⟨w, bits, model⟩ : ∃ w : BitVec (Format.numBits .binary64), x.toBits.toNat = w.toNat ∧
      x.toModel.unpack = UnpackedFloat.unpack .binary64 w := ⟨x.toBits.toBitVec, rfl, rfl⟩
  obtain ⟨sign, fields⟩ := parts_eq_finite h
  have inside := isFinite_iff.1 finite
  rw [bits] at sign fields inside
  rw [← toNat_unpackExponent] at fields inside
  rw [← toNat_unpackMantissa] at fields
  subst fields sign
  have below : (unpackExponent w).toNat < 2 ^ 11 := (unpackExponent w).isLt
  refine ⟨ofFields_canonical (by omega) (unpackMantissa w).isLt pos, ?_⟩
  rw [model, (unpacksTo_unpack w).eq_finite inside pos]
  refine finite_congr ?_ rfl rfl
  rw [ofBitVec_unpackSign]
  simp only [decide_eq_true_eq]

theorem isNaN_of_parts {x : Float} (h : parts x = .nan) : x.isNaN = true := by
  have fields : x.toBits.toNat / 2 ^ 52 % 2 ^ 11 = 2047 ∧ x.toBits.toNat % 2 ^ 52 ≠ 0 := by
    unfold parts at h
    dsimp only at h
    split at h
    · rename_i top
      split at h
      · cases h
      · exact ⟨top, ‹_›⟩
    · cases h
  obtain ⟨w, bits, model⟩ : ∃ w : BitVec (Format.numBits .binary64), x.toBits.toNat = w.toNat ∧
      x.toModel.unpack = UnpackedFloat.unpack .binary64 w := ⟨x.toBits.toBitVec, rfl, rfl⟩
  rw [bits, ← toNat_unpackExponent, ← toNat_unpackMantissa] at fields
  obtain ⟨top, full⟩ := fields
  change x.toModel.unpack.isNaN = true
  rw [model]
  have unpacked := unpacksTo_unpack w
  generalize UnpackedFloat.unpack .binary64 w = u at unpacked ⊢
  cases unpacked with
  | notANumber => rfl
  | infinity _ empty => exact absurd (congrArg BitVec.toNat empty) full
  | zero bottom | subnormal bottom =>
    rw [bottom] at top
    exact absurd top (by decide)
  | normal _ not_top => exact absurd (BitVec.toNat_inj.1 top) not_top

theorem eq_infinity_of_parts {x : Float} {negative : Bool} (h : parts x = .infinite negative) :
    x = if negative then -infinity else infinity := by
  have word := word_fields x.toBits.toNat x.toBits.toNat_lt
  unfold parts at h
  dsimp only at h
  split at h
  · rename_i top
    split at h
    · rename_i empty
      cases h
      rw [show x.toBits.toNat / 2 ^ 52 % 2 ^ 11 = 2047 from top,
        show x.toBits.toNat % 2 ^ 52 = 0 from empty] at word
      refine eq_of_toBits (word.trans ?_)
      rw [Nat.pow_eq]
      by_cases negative : 2 ^ 63 ≤ x.toBits.toNat
      · rw [if_pos negative, if_pos (decide_eq_true negative)]
        decide
      · rw [if_neg negative, if_neg (by rwa [decide_eq_true_eq])]
        decide
    · cases h
  · cases h

theorem eq_zero_of_parts {x : Float} {negative : Bool} {b : Binary}
    (h : parts x = .finite negative b) (zero : b.mantissa = 0) : x = 0.0 ∨ x = -0.0 := by
  refine eq_zero_of_toInt? ?_
  have integral : b.isIntegral = true := by
    rw [Binary.isIntegral, zero, Nat.zero_mod]
    rfl
  have floor : b.floor = 0 := by
    rw [Binary.floor, zero, Nat.zero_mul, Nat.zero_div]
  unfold toInt?
  rw [h]
  dsimp only
  rw [if_pos integral, floor]
  cases negative <;> rfl

/-- A decimal that lies among the numbers that round to a float is read as this float. -/
theorem ofDecimal_eq {x : Float} {negative : Bool} {b : Binary} {m : ℕ} {e : ℤ}
    (h : parts x = .finite negative b) (pos : 0 < b.mantissa) (covers : b.Covers (m * 10 ^ e)) :
    (if negative then -ofDecimal m e else ofDecimal m e) = x := by
  obtain ⟨hb, unpacked⟩ := unpack_of_parts h pos
  have some : 0 < m := by
    refine Nat.pos_of_ne_zero fun none => ?_
    have least := (covers.range hb).1
    rw [none, Nat.cast_zero, zero_mul] at least
    exact absurd least (not_le_of_gt (zpow_pos two_pos _))
  have read := (congrArg Float.Model.unpack (ofDecimal_of_covers hb some covers)).trans
    (hb.unpack_pack .positive)
  refine unpack_injective (Eq.trans ?_ unpacked.symm)
  cases negative with
  | false => exact read
  | true =>
    change Float.Model.unpack (.pack (ofDecimal m e).toModel.unpack.neg) = _
    rw [read]
    exact hb.unpack_pack .negative

end ScoreSheet.Number
