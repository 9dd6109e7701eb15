import Mathlib.Algebra.Group.Nat.Defs
import ScoreSheet.Number.Binary
set_option autoImplicit false

/-! A whole number of at most 53 binary digits has a float of its own. Its word is the
number itself, shifted until its leading digit stands in front of the fraction field. -/
namespace ScoreSheet.Number
open Float.Model Float.Model.UnpackedFloat

theorem eq_of_toBits {x y : Float} (h : x.toBits.toNat = y.toBits.toNat) : x = y := by
  obtain ⟨⟨bits, valid⟩⟩ := x
  obtain ⟨⟨bits', valid'⟩⟩ := y
  obtain rfl : bits = bits' := UInt64.toNat_inj.1 h
  rfl

theorem toNat_packComponents (s : Sign) (e : BitVec 11) (f : BitVec 52) :
    (packComponents .binary64 s e f).toNat = s.toBitVec.toNat * 2 ^ 63 + e.toNat * 2 ^ 52 + f.toNat := by
  unfold packComponents
  rw [BitVec.toNat_append, BitVec.toNat_append, ← Nat.shiftLeft_add_eq_or_of_lt f.isLt,
    ← Nat.shiftLeft_add_eq_or_of_lt e.isLt]
  simp only [Nat.shiftLeft_eq]
  omega

def significand (n : Nat) : Nat := n * 2 ^ (52 - n.log2)

theorem significand_bounds {n : Nat} (h : 0 < n) (hn : n < 2 ^ 53) :
    2 ^ 52 ≤ significand n ∧ significand n < 2 ^ 53 := by
  have hl : n.log2 ≤ 52 := Nat.le_of_lt_succ ((Nat.log2_lt (Nat.ne_of_gt h)).2 hn)
  have low := Nat.log2_self_le (Nat.ne_of_gt h)
  have high : n < 2 ^ (n.log2 + 1) := Nat.lt_log2_self
  have top : 2 ^ n.log2 * 2 ^ (52 - n.log2) = 2 ^ 52 := by
    rw [← Nat.pow_add, Nat.add_sub_cancel' hl]
  have pos : 0 < 2 ^ (52 - n.log2) := Nat.two_pow_pos _
  unfold significand
  constructor
  · rw [← top]
    exact Nat.mul_le_mul_right _ low
  · calc n * 2 ^ (52 - n.log2) < 2 ^ (n.log2 + 1) * 2 ^ (52 - n.log2) := (Nat.mul_lt_mul_right pos).2 high
      _ = 2 ^ 52 * 2 := by rw [Nat.pow_succ, Nat.mul_right_comm, top]
      _ = 2 ^ 53 := rfl

theorem log2_of_bounds {m k : Nat} (hlo : 2 ^ k ≤ m) (hhi : m < 2 ^ (k + 1)) : m.log2 = k := by
  have pos : m ≠ 0 := Nat.ne_of_gt (Nat.lt_of_lt_of_le (Nat.two_pow_pos k) hlo)
  exact (Nat.log2_eq_iff pos).2 ⟨hlo, hhi⟩

theorem shiftRight_exact (m n : Nat) :
    (⟨m * 2 ^ n, false, false⟩ : ExtendedMantissa) >>> n = ⟨m, false, false⟩ := by
  change n.repeat ExtendedMantissa.shiftRightOne _ = _
  induction n generalizing m with
  | zero => simp [Nat.repeat]
  | succ n ih =>
    have step : (⟨m * 2 ^ (n + 1), false, false⟩ : ExtendedMantissa) = ⟨(m * 2) * 2 ^ n, false, false⟩ := by
      rw [Nat.pow_succ, Nat.mul_assoc, Nat.mul_comm 2]
    rw [Nat.repeat, step, ih]
    simp [ExtendedMantissa.shiftRightOne]

theorem shiftToTargetExponent_exact {m k : Nat} {e : Int} (hlo : 2 ^ 52 ≤ m) (hhi : m < 2 ^ 53)
    (he : -1074 ≤ e + k) :
    shiftToTargetExponent .binary64 (m * 2 ^ k) e .exact = (⟨m, false, false⟩, e + k) := by
  have log : (m * 2 ^ k).log2 = 52 + k := by
    refine log2_of_bounds ?_ ?_
    · rw [Nat.pow_add]
      exact Nat.mul_le_mul_right _ hlo
    · rw [Nat.add_right_comm, Nat.pow_add]
      exact (Nat.mul_lt_mul_right (Nat.two_pow_pos k)).2 hhi
  have target : Format.targetExponent .binary64 (totalExponent (m * 2 ^ k) e) = e + k := by
    unfold Format.targetExponent totalExponent
    rw [log]
    change max (((52 + k : Nat) : Int) + 1 + e - (53 : Nat)) (-1074) = e + k
    omega
  unfold shiftToTargetExponent shiftToExponent
  dsimp only
  rw [target]
  have amount : (e + k - e).toNat = k := by omega
  rw [amount]
  exact congrArg (·, e + (k : Int)) (shiftRight_exact m k)

theorem roundWithAccuracy_exact {s : Sign} {m k : Nat} {e : Int} (hlo : 2 ^ 52 ≤ m)
    (hhi : m < 2 ^ 53) (he : -1074 ≤ e + k) :
    roundWithAccuracy .binary64 s (m * 2 ^ k) e .exact =
      .finite s m (e + k) (Nat.lt_of_lt_of_le (Nat.two_pow_pos 52) hlo) := by
  have again := shiftToTargetExponent_exact (k := 0) (e := e + k) hlo hhi (by omega)
  rw [Nat.pow_zero, Nat.mul_one] at again
  have pos : m ≠ 0 := Nat.ne_of_gt (Nat.lt_of_lt_of_le (Nat.two_pow_pos 52) hlo)
  unfold roundWithAccuracy
  rw [shiftToTargetExponent_exact hlo hhi he]
  dsimp only
  have rounded : (⟨m, false, false⟩ : ExtendedMantissa).roundedMantissa = m := rfl
  rw [rounded, again]
  dsimp only
  rw [dif_neg pos]
  congr 1
  omega

def unpackedWhole (s : Sign) (n : Nat) (h : 0 < n) (hn : n < 2 ^ 53) : UnpackedFloat :=
  .finite s (significand n) ((n.log2 : Int) - 52)
    (Nat.lt_of_lt_of_le (Nat.two_pow_pos 52) (significand_bounds h hn).1)

theorem ofNat_unpacked {n : Nat} (h : 0 < n) (hn : n < 2 ^ 53) :
    UnpackedFloat.ofNat .binary64 n = unpackedWhole .positive n h hn := by
  obtain ⟨hlo, hhi⟩ := significand_bounds h hn
  have hl : n.log2 ≤ 52 := Nat.le_of_lt_succ ((Nat.log2_lt (Nat.ne_of_gt h)).2 hn)
  have target : Format.targetExponent .binary64 (totalExponent n 0) = (n.log2 : Int) - 52 := by
    unfold Format.targetExponent totalExponent
    change max ((n.log2 : Int) + 1 + 0 - (53 : Nat)) (-1074) = _
    omega
  unfold UnpackedFloat.ofNat UnpackedFloat.ofInt UnpackedFloat.normalize
  have positive : compare (n : Int) 0 = .gt := by
    rw [Int.compare_eq_gt]
    omega
  rw [positive]
  dsimp only
  unfold UnpackedFloat.round
  dsimp only
  rw [Int.toNat_natCast, target]
  unfold decreaseExponent
  dsimp only
  have amount : (0 - ((n.log2 : Int) - 52)).toNat = 52 - n.log2 := by omega
  rw [amount, Nat.shiftLeft_eq]
  have rounded := roundWithAccuracy_exact (s := .positive) (k := 0)
    (e := 0 - ((52 - n.log2 : Nat) : Int)) hlo hhi (by omega)
  rw [Nat.pow_zero, Nat.mul_one] at rounded
  refine rounded.trans ?_
  unfold unpackedWhole
  congr 1
  omega

theorem biased_exponent (e : Int) : (e + (Format.exponentBias .binary64 : Nat) +
    (Format.mantissaBitsWithoutImplicit .binary64 : Nat)).toNat = (e + 1075).toNat := by
  change (e + (1023 : Nat) + (52 : Nat)).toNat = _
  omega

theorem pack_normal (s : Sign) {m : Nat} {e : Int} (hm : m.log2 = 52) (he : e ≤ 971)
    (pos : 0 < m) : UnpackedFloat.pack .binary64 (.finite s m e pos) =
      packComponents .binary64 s (BitVec.ofNat 11 (e + 1075).toNat) (BitVec.ofNat 52 m) := by
  unfold UnpackedFloat.pack
  dsimp only
  rw [biased_exponent, hm, if_neg (show ¬ 2 ^ 11 ≤ (e + 1075).toNat + 1 by omega)]
  exact if_pos rfl

theorem pack_whole (s : Sign) {n : Nat} (h : 0 < n) (hn : n < 2 ^ 53) :
    UnpackedFloat.pack .binary64 (unpackedWhole s n h hn) =
      packComponents .binary64 s (BitVec.ofNat 11 (n.log2 + 1023)) (BitVec.ofNat 52 (significand n)) := by
  obtain ⟨hlo, hhi⟩ := significand_bounds h hn
  have hl : n.log2 ≤ 52 := Nat.le_of_lt_succ ((Nat.log2_lt (Nat.ne_of_gt h)).2 hn)
  have exponent : ((n.log2 : Int) - 52 + 1075).toNat = n.log2 + 1023 := by omega
  rw [← exponent]
  exact pack_normal s (log2_of_bounds hlo hhi) (by omega) _

theorem ofBitVec_toBitVec (s : Sign) : Sign.ofBitVec s.toBitVec = s := by
  cases s <;> rfl

theorem unpackSign_packComponents (s : Sign) (e : BitVec 11) (f : BitVec 52) :
    unpackSign (packComponents .binary64 s e f) = s.toBitVec := by
  delta unpackSign
  simp only [packComponents, BitVec.extractLsb]
  rw [BitVec.extractLsb'_append_eq_of_le (by omega), BitVec.extractLsb'_append_eq_of_le (by omega)]
  cases s <;> rfl

theorem finite_congr {s s' : Sign} {m m' : Nat} {e e' : Int} {h : 0 < m} {h' : 0 < m'}
    (hs : s = s') (hm : m = m') (he : e = e') :
    UnpackedFloat.finite s m e h = .finite s' m' e' h' := by
  subst hs hm he
  rfl

theorem exponent_field {n : Nat} (hl : n ≤ 1023) : (BitVec.ofNat 11 (n + 1023)).toNat = n + 1023 := by
  rw [BitVec.toNat_ofNat]
  omega

theorem toNat_one_append (f : BitVec 52) : (1#1 ++ f).toNat = 2 ^ 52 + f.toNat := by
  rw [BitVec.toNat_append, ← Nat.shiftLeft_add_eq_or_of_lt f.isLt]
  rfl

inductive UnpacksTo (b : BitVec (Format.numBits .binary64)) : UnpackedFloat → Prop
  | infinity (top : unpackExponent b = -1#11) (empty : unpackMantissa b = 0#52) :
    UnpacksTo b (.infinity (Sign.ofBitVec (unpackSign b)))
  | notANumber (top : unpackExponent b = -1#11) (full : unpackMantissa b ≠ 0#52) :
    UnpacksTo b .notANumber
  | zero (bottom : unpackExponent b = 0#11) (empty : unpackMantissa b = 0#52) :
    UnpacksTo b (.zero (Sign.ofBitVec (unpackSign b)))
  | subnormal (bottom : unpackExponent b = 0#11) (pos : 0 < (unpackMantissa b).toNat) :
    UnpacksTo b (.finite (Sign.ofBitVec (unpackSign b)) (unpackMantissa b).toNat (-1074) pos)
  | normal (not_bottom : unpackExponent b ≠ 0#11) (not_top : unpackExponent b ≠ -1#11)
    (pos : 0 < 2 ^ 52 + (unpackMantissa b).toNat) :
    UnpacksTo b (.finite (Sign.ofBitVec (unpackSign b)) (2 ^ 52 + (unpackMantissa b).toNat)
      (((unpackExponent b).toNat : Int) - 1075) pos)

theorem unpacksTo_unpack (b : BitVec (Format.numBits .binary64)) :
    UnpacksTo b (UnpackedFloat.unpack .binary64 b) := by
  delta UnpackedFloat.unpack
  dsimp only
  by_cases top : unpackExponent b = -1#11
  · rw [if_pos top]
    by_cases empty : unpackMantissa b = 0#52
    · rw [if_pos empty]
      exact .infinity top empty
    · rw [if_neg empty]
      exact .notANumber top empty
  · rw [if_neg top]
    by_cases bottom : unpackExponent b = 0#11
    · rw [if_pos bottom]
      by_cases empty : unpackMantissa b = 0#52
      · rw [dif_pos empty]
        exact .zero bottom empty
      · rw [dif_neg empty]
        have pos : 0 < (unpackMantissa b).toNat :=
          Nat.pos_of_ne_zero fun h => empty (BitVec.toNat_inj.1 h)
        have lowest : ((unpackExponent b).toNat : Int) - (1023 + 52) + 1 = -1074 := by
          rw [bottom]
          rfl
        exact finite_congr rfl rfl lowest ▸ .subnormal bottom pos
    · rw [if_neg bottom]
      exact finite_congr rfl (toNat_one_append (unpackMantissa b)) rfl ▸
        .normal bottom top (Nat.add_pos_left (Nat.two_pow_pos 52) _)

theorem unpack_packComponents {s : Sign} {e : BitVec 11} {f : BitVec 52} (h0 : e ≠ 0#11)
    (h1 : e ≠ -1#11) : UnpackedFloat.unpack .binary64 (packComponents .binary64 s e f) =
      .finite s (2 ^ 52 + f.toNat) ((e.toNat : Int) - 1075) (by omega) := by
  have unpacked := unpacksTo_unpack (packComponents .binary64 s e f)
  have exponent : unpackExponent (packComponents .binary64 s e f) = e :=
    unpackExponent_packComponents
  generalize UnpackedFloat.unpack .binary64 (packComponents .binary64 s e f) = u at unpacked ⊢
  cases unpacked with
  | infinity top => exact absurd (exponent.symm.trans top) h1
  | notANumber top => exact absurd (exponent.symm.trans top) h1
  | zero bottom => exact absurd (exponent.symm.trans bottom) h0
  | subnormal bottom => exact absurd (exponent.symm.trans bottom) h0
  | normal =>
    refine finite_congr ?_ ?_ ?_
    · rw [unpackSign_packComponents, ofBitVec_toBitVec]
    · rw [unpackMantissa_packComponents]
    · rw [exponent]

theorem unpack_pack_normal (s : Sign) {m : Nat} {e : Int} (hm : m.log2 = 52) (hlo : -1074 ≤ e)
    (hhi : e ≤ 971) (pos : 0 < m) :
    UnpackedFloat.unpack .binary64 (UnpackedFloat.pack .binary64 (.finite s m e pos)) =
      .finite s m e pos := by
  obtain ⟨low, high⟩ := (Nat.log2_eq_iff (Nat.ne_of_gt pos)).1 hm
  have field : (BitVec.ofNat 11 (e + 1075).toNat).toNat = (e + 1075).toNat := by
    rw [BitVec.toNat_ofNat]
    omega
  have not_zero : BitVec.ofNat 11 (e + 1075).toNat ≠ 0#11 := by
    intro he
    have zero : (e + 1075).toNat = 0 := field.symm.trans (congrArg BitVec.toNat he)
    omega
  have not_top : BitVec.ofNat 11 (e + 1075).toNat ≠ -1#11 := by
    intro he
    have top : (e + 1075).toNat = 2047 := field.symm.trans (congrArg BitVec.toNat he)
    omega
  have mantissa : 2 ^ 52 + (BitVec.ofNat 52 m).toNat = m := by
    rw [BitVec.toNat_ofNat]
    omega
  rw [pack_normal s hm hhi pos, unpack_packComponents not_zero not_top]
  exact finite_congr rfl mantissa (by rw [field]; omega)

theorem unpack_whole (s : Sign) {n : Nat} (h : 0 < n) (hn : n < 2 ^ 53) :
    UnpackedFloat.unpack .binary64 (UnpackedFloat.pack .binary64 (unpackedWhole s n h hn)) =
      unpackedWhole s n h hn := by
  obtain ⟨hlo, hhi⟩ := significand_bounds h hn
  have hl : n.log2 ≤ 52 := Nat.le_of_lt_succ ((Nat.log2_lt (Nat.ne_of_gt h)).2 hn)
  exact unpack_pack_normal s (log2_of_bounds hlo hhi) (by omega) (by omega) _

theorem unpack_toFloat {n : Nat} (h : 0 < n) (hn : n < 2 ^ 53) :
    n.toUInt64.toFloat.toModel.unpack = unpackedWhole .positive n h hn := by
  have fits : n.toUInt64.toNat = n := Nat.mod_eq_of_lt (by omega)
  change Float.Model.unpack (.pack (UnpackedFloat.ofNat .binary64 n.toUInt64.toNat)) = _
  rw [fits, ofNat_unpacked h hn]
  exact unpack_whole _ h hn

theorem ofNat_toModel {n : Nat} (h : 0 < n) (hn : n < 2 ^ 53) :
    (Float.ofNat n).toModel = .pack (unpackedWhole .positive n h hn) := by
  have small : n < 2 ^ 53 ∧ 0 ≤ 22 := ⟨hn, Nat.zero_le _⟩
  have product : Float.ofNat n = n.toUInt64.toFloat * Float.ofBits 0x3FF0000000000000 := by
    change Float.ofScientific n false 0 = _
    unfold Float.ofScientific
    rw [dif_pos small]
    rfl
  have one : Float.Model.unpack (Float.ofBits 0x3FF0000000000000).toModel =
      .finite .positive (2 ^ 52) (-52) (Nat.two_pow_pos 52) := rfl
  rw [product]
  change Float.Model.pack (UnpackedFloat.mul .binary64 n.toUInt64.toFloat.toModel.unpack
    (Float.ofBits 0x3FF0000000000000).toModel.unpack) = _
  rw [unpack_toFloat h hn, one]
  congr 1
  change roundWithAccuracy .binary64 .positive (significand n * 2 ^ 52)
    ((n.log2 : Int) - 52 + -52) .exact = _
  obtain ⟨hlo, hhi⟩ := significand_bounds h hn
  rw [roundWithAccuracy_exact hlo hhi (by omega)]
  exact finite_congr rfl rfl (by omega)

theorem neg_toModel {x : Float} {n : Nat} (h : 0 < n) (hn : n < 2 ^ 53)
    (hx : x.toModel = .pack (unpackedWhole .positive n h hn)) :
    x.neg.toModel = .pack (unpackedWhole .negative n h hn) := by
  change Float.Model.pack x.toModel.unpack.neg = _
  have unpacked : Float.Model.unpack (.pack (unpackedWhole .positive n h hn)) =
      unpackedWhole .positive n h hn := unpack_whole _ h hn
  rw [hx, unpacked]
  rfl

theorem toBits_whole {x : Float} {s : Sign} {n : Nat} (h : 0 < n) (hn : n < 2 ^ 53)
    (hx : x.toModel = .pack (unpackedWhole s n h hn)) :
    x.toBits.toNat = s.toBitVec.toNat * 2 ^ 63 + (n.log2 + 1023) * 2 ^ 52 +
      (significand n - 2 ^ 52) := by
  obtain ⟨hlo, hhi⟩ := significand_bounds h hn
  have hl : n.log2 ≤ 52 := Nat.le_of_lt_succ ((Nat.log2_lt (Nat.ne_of_gt h)).2 hn)
  have bits : x.toBits.toNat =
      (UnpackedFloat.pack .binary64 (unpackedWhole s n h hn)).toNat := by
    change x.toModel.toBits.toNat = _
    rw [hx]
    rfl
  have fraction : (BitVec.ofNat 52 (significand n)).toNat = significand n - 2 ^ 52 := by
    rw [BitVec.toNat_ofNat]
    omega
  rw [bits, pack_whole, toNat_packComponents, exponent_field (by omega), fraction]

theorem toBits_ofInt (negative : Bool) {n : Nat} (h : 0 < n) (hn : n < 2 ^ 53) :
    (Float.ofInt (if negative then -(n : Int) else n)).toBits.toNat =
      (if negative then 2 ^ 63 else 0) + (n.log2 + 1023) * 2 ^ 52 + (significand n - 2 ^ 52) := by
  cases negative with
  | false =>
    refine (toBits_whole h hn (ofNat_toModel h hn)).trans ?_
    rw [show Sign.positive.toBitVec.toNat = 0 from rfl, Nat.zero_mul]
    rfl
  | true =>
    obtain ⟨n, rfl⟩ := Nat.exists_eq_add_of_le' h
    refine (toBits_whole h hn (neg_toModel h hn (ofNat_toModel h hn))).trans ?_
    rw [show Sign.negative.toBitVec.toNat = 1 from rfl, Nat.one_mul]
    rfl

end ScoreSheet.Number
