import ScoreSheet.Proofs.Number.Word
set_option autoImplicit false

namespace ScoreSheet.Number
open Float.Model Float.Model.UnpackedFloat

theorem log2_of_shifted {n k : Nat} (hk : k ≤ 52) (hlo : 2 ^ 52 ≤ n * 2 ^ k)
    (hhi : n * 2 ^ k < 2 ^ 53) : n.log2 = 52 - k := by
  have pos : 0 < 2 ^ k := Nat.two_pow_pos k
  refine log2_of_bounds ?_ ?_
  · have top : 2 ^ (52 - k) * 2 ^ k = 2 ^ 52 := by rw [← Nat.pow_add, Nat.sub_add_cancel hk]
    exact Nat.le_of_mul_le_mul_right (top ▸ hlo) pos
  · have top : 2 ^ (52 - k + 1) * 2 ^ k = 2 ^ 53 := by
      rw [← Nat.pow_add]
      congr 1
      omega
    exact Nat.lt_of_mul_lt_mul_right (top ▸ hhi)

/-- A whole number, with its power of two on either side. -/
theorem Binary.floor_mul {b : Binary} (hi : b.isIntegral = true) :
    b.floor * 2 ^ (-b.exponent).toNat = b.mantissa * 2 ^ b.exponent.toNat :=
  Nat.div_mul_cancel (Nat.dvd_mul_right_of_dvd (Nat.dvd_of_mod_eq_zero (eq_of_beq hi)) _)

theorem two_pow_le_shifted (f a : Nat) : 2 ^ 53 ≤ (2 ^ 52 + f) * 2 ^ (a + 1) := by
  calc 2 ^ 53 = 2 ^ 52 * 2 := rfl
    _ ≤ (2 ^ 52 + f) * 2 ^ (a + 1) := by
      refine Nat.mul_le_mul (Nat.le_add_right _ _) ?_
      rw [Nat.pow_succ]
      exact Nat.le_mul_of_pos_left _ (Nat.two_pow_pos a)

theorem ofFields_whole {e f n : Nat} (hf : f < 2 ^ 52)
    (hi : (Binary.ofFields e f).isIntegral = true) (hfloor : (Binary.ofFields e f).floor = n)
    (h : 0 < n) (hn : n < 2 ^ 53) : ∃ k ≤ 52, e + k = 1075 ∧ 2 ^ 52 + f = n * 2 ^ k := by
  have product := Binary.floor_mul hi
  rw [hfloor] at product
  unfold Binary.ofFields at product
  split at product
  · -- A subnormal number is whole only if it is zero.
    obtain ⟨k, hk, hl⟩ : ∃ k, (-(-1074 : Int)).toNat = k ∧ 52 ≤ k := ⟨_, rfl, by decide⟩
    dsimp only at product
    rw [hk] at product
    have whole : n * 2 ^ k = f := product.trans (Nat.mul_one f)
    have large : 2 ^ 52 ≤ n * 2 ^ k := by
      calc 2 ^ 52 ≤ 2 ^ k := Nat.pow_le_pow_right (by decide) hl
        _ ≤ n * 2 ^ k := Nat.le_mul_of_pos_left _ h
    omega
  · dsimp only at product
    rcases Nat.lt_or_ge 1075 e with hgt | hle
    · obtain ⟨a, rfl⟩ := Nat.exists_eq_add_of_lt hgt
      rw [show (-(((1075 + a + 1 : Nat) : Int) - 1075)).toNat = 0 by omega,
        show (((1075 + a + 1 : Nat) : Int) - 1075).toNat = a + 1 by omega] at product
      have whole : n = (2 ^ 52 + f) * 2 ^ (a + 1) := (Nat.mul_one n).symm.trans product
      have large := two_pow_le_shifted f a
      omega
    · obtain ⟨k, hk⟩ := Nat.exists_eq_add_of_le hle
      rw [show (-((e : Int) - 1075)).toNat = k by omega,
        show ((e : Int) - 1075).toNat = 0 by omega] at product
      have whole : 2 ^ 52 + f = n * 2 ^ k := (product.trans (Nat.mul_one _)).symm
      have small : 2 ^ k < 2 ^ 53 := by
        calc 2 ^ k ≤ n * 2 ^ k := Nat.le_mul_of_pos_left _ h
          _ < 2 ^ 53 := by omega
      exact ⟨k, Nat.le_of_lt_succ ((Nat.pow_lt_pow_iff_right (by decide)).1 small), hk.symm, whole⟩

/-- The fields of the word of a float that is a whole number below `2 ^ 53`. -/
theorem fields_of_floor {e f n : Nat} (hf : f < 2 ^ 52)
    (hi : (Binary.ofFields e f).isIntegral = true) (hfloor : (Binary.ofFields e f).floor = n)
    (h : 0 < n) (hn : n < 2 ^ 53) : e = n.log2 + 1023 ∧ f = significand n - 2 ^ 52 := by
  obtain ⟨k, hk, he, product⟩ := ofFields_whole hf hi hfloor h hn
  have log := log2_of_shifted (n := n) hk (by omega) (by omega)
  refine ⟨by omega, ?_⟩
  unfold significand
  rw [log, show 52 - (52 - k) = k by omega, ← product]
  omega

theorem word_fields (w : Nat) (hw : w < 2 ^ 64) :
    w = (if 2 ^ 63 ≤ w then 2 ^ 63 else 0) + w / 2 ^ 52 % 2 ^ 11 * 2 ^ 52 + w % 2 ^ 52 := by
  split <;> omega

theorem toInt?_eq_some {x : Float} {n : Int} (h : toInt? x = some n) : ∃ negative b,
    parts x = .finite negative b ∧ b.isIntegral = true ∧
      n = if negative then -(b.floor : Int) else b.floor := by
  unfold toInt? at h
  split at h
  · rename_i negative b hp
    split at h
    · exact ⟨negative, b, hp, ‹_›, (Option.some.inj h).symm⟩
    · cases h
  · cases h

theorem parts_eq_finite {x : Float} {negative : Bool} {b : Binary}
    (h : parts x = .finite negative b) : negative = decide (2 ^ 63 ≤ x.toBits.toNat) ∧
      b = .ofFields (x.toBits.toNat / 2 ^ 52 % 2 ^ 11) (x.toBits.toNat % 2 ^ 52) := by
  unfold parts at h
  dsimp only at h
  split at h
  · split at h <;> cases h
  · cases h
    exact ⟨rfl, rfl⟩

theorem ofInt_of_toInt? {x : Float} {n : Int} (h : toInt? x = some n) (h0 : n ≠ 0)
    (hn : n.natAbs < 2 ^ 53) : Float.ofInt n = x := by
  obtain ⟨negative, b, hp, hi, rfl⟩ := toInt?_eq_some h
  obtain ⟨hnegative, hb⟩ := parts_eq_finite hp
  have abs : (if negative then -(b.floor : Int) else b.floor).natAbs = b.floor := by
    cases negative with
    | false => exact Int.natAbs_natCast _
    | true => exact (Int.natAbs_neg _).trans (Int.natAbs_natCast _)
  have pos : 0 < b.floor := by
    rw [← abs]
    exact Int.natAbs_pos.2 h0
  rw [abs] at hn
  refine eq_of_toBits ?_
  rw [toBits_ofInt negative pos hn]
  have word := word_fields x.toBits.toNat x.toBits.toNat_lt
  obtain ⟨he, hf⟩ := fields_of_floor (Nat.mod_lt _ (by decide)) (hb ▸ hi) (hb ▸ rfl) pos hn
  rw [← he, ← hf]
  refine Eq.trans ?_ word.symm
  rw [hnegative]
  simp only [decide_eq_true_eq]

theorem Binary.mantissa_eq_zero {b : Binary} (hi : b.isIntegral = true) (hf : b.floor = 0) :
    b.mantissa = 0 := by
  have product := floor_mul hi
  rw [hf, Nat.zero_mul] at product
  exact (Nat.mul_eq_zero.1 product.symm).resolve_right (Nat.ne_of_gt (Nat.two_pow_pos _))

theorem toBits_of_toInt?_zero {x : Float} (h : toInt? x = some 0) :
    x.toBits.toNat = 0 ∨ x.toBits.toNat = 2 ^ 63 := by
  obtain ⟨negative, b, hp, hi, h0⟩ := toInt?_eq_some h
  obtain ⟨-, hb⟩ := parts_eq_finite hp
  have floor : b.floor = 0 := by
    cases negative with
    | false => exact Int.natCast_eq_zero.1 h0.symm
    | true => exact Int.natCast_eq_zero.1 (Int.neg_eq_zero.1 h0.symm)
  have mantissa := Binary.mantissa_eq_zero hi floor
  have word := word_fields x.toBits.toNat x.toBits.toNat_lt
  rw [hb] at mantissa
  unfold Binary.ofFields at mantissa
  split at mantissa
  · rename_i he
    rw [he, show x.toBits.toNat % 2 ^ 52 = 0 from mantissa] at word
    split at word
    · exact .inr word
    · exact .inl word
  · exact absurd mantissa (Nat.ne_of_gt (Nat.add_pos_left (Nat.two_pow_pos 52) _))

theorem eq_zero_of_toInt? {x : Float} (h : toInt? x = some 0) : x = 0.0 ∨ x = -0.0 := by
  rcases toBits_of_toInt?_zero h with h | h
  · exact .inl (eq_of_toBits (h.trans rfl))
  · exact .inr (eq_of_toBits (h.trans rfl))

theorem toNat_unpackExponent (b : BitVec 64) :
    (unpackExponent b : BitVec (Format.exponentBits .binary64)).toNat = b.toNat / 2 ^ 52 % 2 ^ 11 := by
  simp [unpackExponent, Nat.shiftRight_eq_div_pow]

theorem toNat_unpackMantissa (b : BitVec 64) :
    (unpackMantissa b : BitVec (Format.mantissaBitsWithoutImplicit .binary64)).toNat = b.toNat % 2 ^ 52 := by
  simp [unpackMantissa]

theorem compare_self {u : UnpackedFloat} (h : u ≠ .notANumber) : u.beq u = true := by
  cases u with
  | notANumber => exact absurd rfl h
  | infinity s => cases s <;> rfl
  | zero s => rfl
  | finite s m e hm =>
    have same : (compare e e).then (compare m m) = .eq := by
      rw [Std.compare_self, Std.compare_self]
      rfl
    refine beq_iff_eq.2 (?_ : UnpackedFloat.compare _ _ = some .eq)
    cases s with
    | positive => exact congrArg some same
    | negative => exact congrArg (fun o => some o.swap) same

theorem fields_of_notANumber {b : BitVec 64} (h : UnpackedFloat.unpack .binary64 b = .notANumber) :
    b.toNat / 2 ^ 52 % 2 ^ 11 = 2047 ∧ b.toNat % 2 ^ 52 ≠ 0 := by
  have unpacked := unpacksTo_unpack b
  rw [h] at unpacked
  cases unpacked with
  | notANumber top full =>
    constructor
    · rw [← toNat_unpackExponent, top]
      rfl
    · rw [← toNat_unpackMantissa]
      exact fun h0 => full (BitVec.toNat_inj.1 h0)

theorem unpack_ne_notANumber {x : Float} (h : parts x ≠ .nan) :
    x.toModel.unpack ≠ .notANumber := by
  intro hu
  obtain ⟨he, hf⟩ := fields_of_notANumber hu
  exact h ((if_pos he).trans (if_neg hf))

theorem beq_self {x : Float} (h : parts x ≠ .nan) : (x == x) = true :=
  compare_self (unpack_ne_notANumber h)

theorem beq_ofInt {x : Float} {n : Int} (h : toInt? x = some n) (hn : n.natAbs < 2 ^ 53) :
    (Float.ofInt n == x) = true := by
  by_cases h0 : n = 0
  · subst h0
    rcases eq_zero_of_toInt? h with rfl | rfl <;> decide
  · rw [ofInt_of_toInt? h h0 hn]
    exact beq_self fun hp => by
      obtain ⟨_, _, hp', -⟩ := toInt?_eq_some h
      rw [hp] at hp'
      cases hp'

theorem toInt?_ofInt {x : Float} {n : Int} (h : toInt? x = some n) (hn : n.natAbs < 2 ^ 53) :
    toInt? (Float.ofInt n) = some n := by
  by_cases h0 : n = 0
  · subst h0
    decide +kernel
  · rwa [ofInt_of_toInt? h h0 hn]

end ScoreSheet.Number
