import ScoreSheet.Proofs.Number.Whole
set_option autoImplicit false

namespace ScoreSheet.Number
open Float.Model Float.Model.UnpackedFloat

def InRange : UnpackedFloat → Prop
  | .zero _ => True
  | .finite _ m e _ => m < 2 ^ 53 ∧ e ≤ 971
  | _ => False

theorem isFinite_iff {x : Float} :
    isFinite x = true ↔ x.toBits.toNat / 2 ^ 52 % 2 ^ 11 ≠ 2047 := by
  unfold isFinite parts
  dsimp only
  by_cases h : x.toBits.toNat / Nat.pow 2 52 % Nat.pow 2 11 = 2047
  · rw [if_pos h]
    refine iff_of_false ?_ (fun other => other h)
    by_cases zero : x.toBits.toNat % Nat.pow 2 52 = 0
    · rw [if_pos zero]
      exact Bool.false_ne_true
    · rw [if_neg zero]
      exact Bool.false_ne_true
  · rw [if_neg h]
    exact iff_of_true rfl h

theorem field_packComponents (s : Sign) (e : BitVec 11) (f : BitVec 52) :
    (packComponents .binary64 s e f).toNat / 2 ^ 52 % 2 ^ 11 = e.toNat := by
  rw [toNat_packComponents]
  have fraction := f.isLt
  have exponent := e.isLt
  omega

theorem isFinite_pack {x : Float} {u : UnpackedFloat} (hx : x.toModel = .pack u)
    (h : InRange u) : isFinite x = true := by
  have bits : x.toBits.toNat = (UnpackedFloat.pack .binary64 u).toNat := by
    change x.toModel.toBits.toNat = _
    rw [hx]
    rfl
  rw [isFinite_iff, bits]
  cases u with
  | notANumber => cases h
  | infinity s => cases h
  | zero s => exact fun top => absurd ((field_packComponents s 0 0).symm.trans top) (by decide)
  | finite s m e hm =>
    have bound : e ≤ 971 := h.2
    unfold UnpackedFloat.pack
    dsimp only
    rw [biased_exponent, if_neg (show ¬ 2 ^ 11 ≤ (e + 1075).toNat + 1 by omega)]
    split
    · rw [field_packComponents, BitVec.toNat_ofNat]
      omega
    · rw [field_packComponents]
      decide

theorem unpack_of_field {b : BitVec 64} (h : b.toNat / 2 ^ 52 % 2 ^ 11 ≠ 2047) :
    InRange (UnpackedFloat.unpack .binary64 b) := by
  have not_top : (unpackExponent b : BitVec (Format.exponentBits .binary64)) ≠ -1#11 :=
    fun top => h ((toNat_unpackExponent b).symm.trans (congrArg BitVec.toNat top))
  have field := toNat_unpackExponent b
  have fraction : (unpackMantissa b :
      BitVec (Format.mantissaBitsWithoutImplicit .binary64)).toNat < 2 ^ 52 := BitVec.isLt _
  have unpacked := unpacksTo_unpack b
  generalize UnpackedFloat.unpack .binary64 b = u at unpacked ⊢
  cases unpacked with
  | infinity top => exact absurd top not_top
  | notANumber top => exact absurd top not_top
  | zero => trivial
  | subnormal => exact ⟨Nat.lt_trans fraction (by decide), by decide⟩
  | normal =>
    constructor
    · exact Nat.add_lt_add_left fraction (2 ^ 52)
    · omega

theorem inRange_unpack {x : Float} (h : isFinite x = true) : InRange x.toModel.unpack :=
  unpack_of_field (isFinite_iff.1 h)

theorem mantissa_shiftRight (em : ExtendedMantissa) (n : Nat) :
    (em >>> n).mantissa = em.mantissa / 2 ^ n := by
  change (n.repeat ExtendedMantissa.shiftRightOne em).mantissa = _
  induction n with
  | zero =>
    rw [Nat.pow_zero, Nat.div_one]
    rfl
  | succ n ih =>
    rw [Nat.repeat, Nat.pow_succ, ← Nat.div_div_eq_div_mul, ← ih]
    rfl

theorem roundedMantissa_le (em : ExtendedMantissa) : em.roundedMantissa ≤ em.mantissa + 1 := by
  obtain ⟨m, r, s⟩ := em
  cases r <;> cases s
  · exact Nat.le_succ m
  · exact Nat.le_succ m
  · exact Nat.add_le_add_left (Nat.le_of_lt_succ (Nat.mod_lt m (by decide))) m
  · exact Nat.le_refl _

theorem mantissa_ofMantissaAndAccuracy (m : Nat) (acc : Accuracy) :
    (ExtendedMantissa.ofMantissaAndAccuracy m acc).mantissa = m := by
  rcases acc with _ | (_ | _ | _) <;> rfl

theorem shiftToTargetExponent_eq (m : Nat) (e : Int) (acc : Accuracy) : ∃ k : Nat,
    shiftToTargetExponent .binary64 m e acc =
        (ExtendedMantissa.ofMantissaAndAccuracy m acc >>> k, e + k) ∧
      e + k = max e (max ((m.log2 : Int) + 1 + e - 53) (-1074)) := by
  refine ⟨_, rfl, ?_⟩
  change e + ((max ((m.log2 : Int) + 1 + e - (53 : Nat)) (-1074) - e).toNat : Int) = _
  omega

/-- The exponent moves up by as many places as the mantissa loses. -/
theorem shiftToTargetExponent_spec (m : Nat) (e : Int) (acc : Accuracy) : ∃ k : Nat,
    (shiftToTargetExponent .binary64 m e acc).1.mantissa = m / 2 ^ k ∧
      (shiftToTargetExponent .binary64 m e acc).2 = e + k ∧
      e + k = max e (max ((m.log2 : Int) + 1 + e - 53) (-1074)) := by
  obtain ⟨k, shifted, place⟩ := shiftToTargetExponent_eq m e acc
  refine ⟨k, ?_, by rw [shifted], place⟩
  rw [shifted, mantissa_shiftRight, mantissa_ofMantissaAndAccuracy]

theorem log2_succ_div (m k : Nat) {r : Nat} (hr : r ≤ m / 2 ^ k + 1) :
    r.log2 ≤ m.log2 + 1 - k := by
  by_cases h0 : r = 0
  · subst h0
    exact Nat.zero_le _
  refine Nat.le_of_lt_succ ((Nat.log2_lt h0).2 ?_)
  have top : m < 2 ^ (m.log2 + 1) := Nat.lt_log2_self
  have quotient : m / 2 ^ k < 2 ^ (m.log2 + 1 - k) := by
    refine Nat.div_lt_of_lt_mul (Nat.lt_of_lt_of_le top ?_)
    rw [← Nat.pow_add]
    exact Nat.pow_le_pow_right (by decide) (by omega)
  calc r ≤ 2 ^ (m.log2 + 1 - k) := Nat.le_trans hr quotient
    _ < 2 ^ (m.log2 + 1 - k + 1) := Nat.pow_lt_pow_right (by decide) (Nat.lt_succ_self _)

theorem lt_of_log2_le {m k : Nat} (h : m.log2 + 1 ≤ 53 + k) : m / 2 ^ k < 2 ^ 53 := by
  refine Nat.div_lt_of_lt_mul (Nat.lt_of_lt_of_le Nat.lt_log2_self ?_)
  rw [← Nat.pow_add]
  exact Nat.pow_le_pow_right (by decide) (by omega)

theorem inRange_unless_zero {s : Sign} {m : Nat} {e : Int} (h : m < 2 ^ 53 ∧ e ≤ 971) :
    InRange (if h0 : m = 0 then .zero s else .finite s m e (Nat.pos_of_ne_zero h0)) := by
  by_cases h0 : m = 0
  · rw [dif_pos h0]
    trivial
  · rw [dif_neg h0]
    exact h

theorem roundWithAccuracy_inRange (s : Sign) {m : Nat} {e : Int} (acc : Accuracy)
    (he : e ≤ 971) (hm : (m.log2 : Int) + 1 + e ≤ 1023) :
    InRange (roundWithAccuracy .binary64 s m e acc) := by
  obtain ⟨k, first, place, hk⟩ := shiftToTargetExponent_spec m e acc
  have log := log2_succ_div m k
    (first ▸ roundedMantissa_le (shiftToTargetExponent .binary64 m e acc).1)
  unfold roundWithAccuracy
  dsimp only
  obtain ⟨k', second, place', hk'⟩ := shiftToTargetExponent_spec
    (shiftToTargetExponent .binary64 m e acc).1.roundedMantissa
    (shiftToTargetExponent .binary64 m e acc).2 .exact
  refine inRange_unless_zero ?_
  rw [second, place', hk']
  rw [place] at hk' ⊢
  exact ⟨lt_of_log2_le (by omega), by omega⟩

theorem isFinite_neg {x : Float} (h : isFinite x = true) : isFinite (-x) = true := by
  refine isFinite_pack (u := x.toModel.unpack.neg) rfl ?_
  have range := inRange_unpack h
  cases hu : x.toModel.unpack with
  | zero s => trivial
  | finite s m e hm =>
    rw [hu] at range
    exact range
  | infinity s =>
    rw [hu] at range
    cases range
  | notANumber =>
    rw [hu] at range
    cases range

theorem log2_mul_two_pow {m : Nat} (hm : 0 < m) (k : Nat) : (m * 2 ^ k).log2 = m.log2 + k := by
  refine log2_of_bounds ?_ ?_
  · rw [Nat.pow_add]
    exact Nat.mul_le_mul_right _ (Nat.log2_self_le (Nat.ne_of_gt hm))
  · rw [Nat.add_right_comm, Nat.pow_add]
    exact (Nat.mul_lt_mul_right (Nat.two_pow_pos k)).2 Nat.lt_log2_self

def isLarge : UnpackedFloat → Bool
  | .finite _ m e _ => 4 ≤ (m.log2 : Int) + 1 + e
  | _ => false

/-- A quotient is taken with as many digits behind the point as its place asks for. -/
theorem divCore_eq (m₁ m₂ : Nat) (e₁ e₂ : Int) : ∃ (k : Nat) (t : Int),
    divCore .binary64 m₁ e₁ m₂ e₂ =
        (m₁ * 2 ^ k / m₂, t, accuracyOfFraction (m₁ * 2 ^ k % m₂) m₂) ∧
      e₁ - e₂ - t = k ∧ t = min (e₁ - e₂)
        (max ((m₁.log2 : Int) + 1 + e₁ - (m₂.log2 + 1 + e₂) - 53) (-1074)) := by
  obtain ⟨t, ht⟩ : ∃ t, t = min (e₁ - e₂)
      (max ((m₁.log2 : Int) + 1 + e₁ - (m₂.log2 + 1 + e₂) - 53) (-1074)) := ⟨_, rfl⟩
  refine ⟨(e₁ - e₂ - t).toNat, t, ?_, by omega, ht⟩
  rw [ht, ← Nat.shiftLeft_eq]
  rfl

theorem divCore_bounds {m₁ m₂ : Nat} {e₁ e₂ : Int} (h₁ : m₁ < 2 ^ 53 ∧ e₁ ≤ 971)
    (h₂ : 4 ≤ (m₂.log2 : Int) + 1 + e₂) (p₁ : 0 < m₁) (p₂ : 0 < m₂) :
    (divCore .binary64 m₁ e₁ m₂ e₂).2.1 ≤ 971 ∧
      ((divCore .binary64 m₁ e₁ m₂ e₂).1.log2 : Int) + 1 + (divCore .binary64 m₁ e₁ m₂ e₂).2.1 ≤
        1023 := by
  have log : m₁.log2 ≤ 52 := Nat.le_of_lt_succ ((Nat.log2_lt (Nat.ne_of_gt p₁)).2 h₁.1)
  obtain ⟨k, t, core, shift, place⟩ := divCore_eq m₁ m₂ e₁ e₂
  have log_quotient := log2_succ_div (m₁ * 2 ^ k) m₂.log2
    (Nat.le_succ_of_le (Nat.div_le_div_left (Nat.log2_self_le (Nat.ne_of_gt p₂))
      (Nat.two_pow_pos _)))
  rw [log2_mul_two_pow p₁] at log_quotient
  rw [core]
  dsimp only
  omega

theorem isFinite_div {x y : Float} (hx : isFinite x = true) (hy : isLarge y.toModel.unpack = true) :
    isFinite (x / y) = true := by
  refine isFinite_pack (u := UnpackedFloat.div .binary64 x.toModel.unpack y.toModel.unpack) rfl ?_
  have range := inRange_unpack hx
  cases hv : y.toModel.unpack with
  | finite s₂ m₂ e₂ p₂ =>
    rw [hv] at hy
    cases hu : x.toModel.unpack with
    | zero s => trivial
    | finite s₁ m₁ e₁ p₁ =>
      rw [hu] at range
      obtain ⟨place, total⟩ := divCore_bounds range (of_decide_eq_true hy) p₁ p₂
      exact roundWithAccuracy_inRange _ _ place total
    | infinity s =>
      rw [hu] at range
      cases range
    | notANumber =>
      rw [hu] at range
      cases range
  | _ =>
    rw [hv] at hy
    cases hy

theorem ofNat_toModel_large {n : Nat} (large : 2 ^ 53 ≤ n) : (Float.ofNat n).toModel =
    .pack (roundWithAccuracy .binary64 .positive (n * 2 ^ 53) (-53) .exact) := by
  have pos : 0 < n := Nat.lt_of_lt_of_le (Nat.two_pow_pos 53) large
  have slow : Float.ofNat n = Float.ofModel (Float.Model.ofScientific n 0) := by
    change Float.ofScientific n false 0 = _
    unfold Float.ofScientific
    rw [dif_neg fun h => Nat.not_lt.2 large h.1]
    rfl
  have bits : (2 : Int) ^ Format.exponentBits .binary64 = 2048 := rfl
  rw [slow]
  change Float.Model.pack (UnpackedFloat.ofScientific .binary64 n 0) = _
  unfold UnpackedFloat.ofScientific
  rw [bits, dif_neg (Nat.ne_of_gt pos), if_neg (by decide), if_neg (by omega),
    if_pos (by decide)]
  unfold UnpackedFloat.mul
  dsimp only
  rw [Int.toNat_zero, Nat.pow_zero, Nat.mul_one, Nat.shiftLeft_eq]
  rfl

theorem isFinite_ofNat {n : Nat} (hn : n < 2 ^ 64) : isFinite (Float.ofNat n) = true := by
  rcases Nat.eq_zero_or_pos n with rfl | pos
  · decide
  rcases Nat.lt_or_ge n (2 ^ 53) with small | large
  · refine isFinite_pack (ofNat_toModel pos small) ⟨(significand_bounds pos small).2, ?_⟩
    have log : n.log2 < 53 := (Nat.log2_lt (Nat.ne_of_gt pos)).2 small
    omega
  · have log : n.log2 < 64 := (Nat.log2_lt (Nat.ne_of_gt pos)).2 hn
    refine isFinite_pack (ofNat_toModel_large large)
      (roundWithAccuracy_inRange _ _ (by decide) ?_)
    rw [log2_mul_two_pow pos]
    omega

theorem isFinite_ofInt {n : Int} (hn : n.natAbs < 2 ^ 64) : isFinite (Float.ofInt n) = true := by
  cases n with
  | ofNat n => exact isFinite_ofNat hn
  | negSucc n => exact isFinite_neg (isFinite_ofNat hn)

theorem log2_div_two_pow {m k : Nat} (hk : k ≤ m.log2) (hm : 0 < m) :
    (m / 2 ^ k).log2 = m.log2 - k := by
  have low := Nat.log2_self_le (Nat.ne_of_gt hm)
  have high : m < 2 ^ (m.log2 + 1) := Nat.lt_log2_self
  refine log2_of_bounds ?_ ?_
  · rw [Nat.le_div_iff_mul_le (Nat.two_pow_pos k), ← Nat.pow_add, Nat.sub_add_cancel hk]
    exact low
  · refine Nat.div_lt_of_lt_mul ?_
    rw [← Nat.pow_add, show k + (m.log2 - k + 1) = m.log2 + 1 by omega]
    exact high

theorem le_roundedMantissa (em : ExtendedMantissa) : em.mantissa ≤ em.roundedMantissa := by
  obtain ⟨m, r, s⟩ := em
  cases r <;> cases s
  · exact Nat.le_refl m
  · exact Nat.le_refl m
  · exact Nat.le_add_right m _
  · exact Nat.le_succ m

theorem pos_of_log2 {m k : Nat} (h : m.log2 = k + 1) : 0 < m :=
  Nat.pos_of_ne_zero fun h0 => by
    rw [h0, Nat.log2_zero] at h
    cases h

/-- A mantissa that is wide enough is rounded to a normal one of about the same size. -/
theorem roundWithAccuracy_normal (s : Sign) {m : Nat} {e : Int} (acc : Accuracy)
    (hm : 52 ≤ m.log2) (he : -1021 ≤ (m.log2 : Int) + 1 + e) : ∃ m' e' pos,
      roundWithAccuracy .binary64 s m e acc = .finite s m' e' pos ∧ m'.log2 = 52 ∧
        (m.log2 : Int) - 52 + e ≤ e' ∧ e' ≤ (m.log2 : Int) - 51 + e := by
  obtain ⟨j, hj⟩ := Nat.exists_eq_add_of_le hm
  have pos : 0 < m := pos_of_log2 (k := 51 + j) (by omega)
  obtain ⟨k, first, place, hk⟩ := shiftToTargetExponent_spec m e acc
  obtain ⟨r, hr⟩ : ∃ r, (shiftToTargetExponent .binary64 m e acc).1.roundedMantissa = r := ⟨_, rfl⟩
  have above := le_roundedMantissa (shiftToTargetExponent .binary64 m e acc).1
  have below := roundedMantissa_le (shiftToTargetExponent .binary64 m e acc).1
  rw [first, hr] at above below
  have log : (m / 2 ^ k).log2 = 52 := by
    rw [log2_div_two_pow (by omega) pos]
    omega
  obtain ⟨low, high⟩ := (Nat.log2_eq_iff (Nat.ne_of_gt (pos_of_log2 log))).1 log
  -- Only a mantissa of ones is rounded up to one more digit.
  obtain ⟨k', hr', hk'⟩ : ∃ k' ≤ 1, r.log2 = 52 + k' := by
    rcases Nat.lt_or_ge r (2 ^ 53) with small | large
    · exact ⟨0, by decide, log2_of_bounds (Nat.le_trans low above) small⟩
    · exact ⟨1, by decide, log2_of_bounds large (by omega)⟩
  obtain ⟨k'', second, place', hk''⟩ :=
    shiftToTargetExponent_spec r (shiftToTargetExponent .binary64 m e acc).2 .exact
  rw [place] at second place' hk''
  obtain rfl : k'' = k' := by omega
  have final : (r / 2 ^ k'').log2 = 52 := by
    rw [log2_div_two_pow (by omega) (pos_of_log2 (k := 51 + k'') (by omega))]
    omega
  have not_zero :
      (shiftToTargetExponent .binary64 r (e + k) .exact).1.mantissa ≠ 0 := by
    rw [second]
    exact Nat.ne_of_gt (pos_of_log2 final)
  refine ⟨r / 2 ^ k'', e + k + k'', pos_of_log2 final, ?_, final, by omega, by omega⟩
  unfold roundWithAccuracy
  dsimp only
  rw [hr, place, dif_neg not_zero]
  exact finite_congr rfl second place'

theorem log2_ten_pow {k : Nat} (h0 : 0 < k) (hk : k ≤ 307) :
    3 ≤ (10 ^ k).log2 ∧ (10 ^ k).log2 ≤ 1022 := by
  have pos : 10 ^ k ≠ 0 := Nat.ne_of_gt (Nat.pow_pos (by decide))
  constructor
  · have ten : 10 ^ 1 ≤ 10 ^ k := Nat.pow_le_pow_right (by decide) h0
    exact (Nat.le_log2 pos).2 (Nat.le_trans (by decide) ten)
  · refine Nat.le_of_lt_succ ((Nat.log2_lt pos).2 ?_)
    exact Nat.lt_of_le_of_lt (Nat.pow_le_pow_right (by decide) hk) (by decide +kernel)

theorem isLarge_tenPow {k : Nat} (h0 : 0 < k) (hk : k ≤ 308) :
    isLarge (Float.ofScientific 1 false k).toModel.unpack = true := by
  rcases Nat.lt_or_ge 22 k with slow | fast
  · rcases Nat.lt_or_eq_of_le hk with inside | rfl
    · have model : (Float.ofScientific 1 false k).toModel =
          .pack (UnpackedFloat.ofScientific .binary64 1 k) := by
        unfold Float.ofScientific
        rw [dif_neg fun h => Nat.not_lt.2 h.2 slow]
        rfl
      obtain ⟨low, high⟩ := log2_ten_pow h0 (Nat.le_of_lt_succ inside)
      have bits : (2 : Int) ^ Format.exponentBits .binary64 = 2048 := rfl
      have width : (1 <<< Format.mantissaBits .binary64) * 10 ^ k = 10 ^ k * 2 ^ 53 :=
        Nat.mul_comm _ _
      have log := log2_mul_two_pow (Nat.pow_pos (n := k) (show 0 < 10 by decide)) 53
      obtain ⟨m, e, pos, round, hm, he, he'⟩ :=
        roundWithAccuracy_normal .positive (m := 10 ^ k * 2 ^ 53) (e := -53) .exact (by omega)
          (by omega)
      have unpacked : UnpackedFloat.ofScientific .binary64 1 k = .finite .positive m e pos := by
        unfold UnpackedFloat.ofScientific
        rw [bits, dif_neg (by decide), if_neg (by omega), if_neg (by omega), if_pos (by omega)]
        unfold UnpackedFloat.mul
        dsimp only
        rw [Int.toNat_natCast, width]
        exact round
      have again : Float.Model.unpack (.pack (.finite .positive m e pos)) = .finite .positive m e pos :=
        unpack_pack_normal .positive hm (by omega) (by omega) pos
      rw [model, unpacked, again]
      exact decide_eq_true (by omega)
    · decide +kernel
  · have table : ∀ k ≤ 22, 0 < k → isLarge (Float.ofScientific 1 false k).toModel.unpack = true := by
      decide +kernel
    exact table k fast h0

end ScoreSheet.Number
