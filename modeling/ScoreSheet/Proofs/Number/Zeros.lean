import ScoreSheet.Number.Numeral
import ScoreSheet.Proofs.Number.Finite
set_option autoImplicit false

/-! Two numbers are alike if they are the same float or both zeros. That is what `==` finds
out, except that it finds no number that is not a number equal to itself. Like numbers
have the same texts and compare alike, and arithmetic takes like numbers to like ones,
as long as none of them divides. -/
namespace ScoreSheet.Number
open Float.Model Float.Model.UnpackedFloat

section Parts
variable {b : BitVec (Format.numBits .binary64)}

theorem toBitVec_ofBitVec (v : BitVec 1) : (Sign.ofBitVec v).toBitVec = v := by
  rcases BitVec.eq_zero_or_eq_one v with rfl | rfl <;> rfl

theorem toNat_unpackSign (b : BitVec (Format.numBits .binary64)) :
    (unpackSign b).toNat = b.toNat / 2 ^ 63 % 2 := by
  delta unpackSign
  simp [Nat.shiftRight_eq_div_pow]

theorem packComponents_unpack {e : BitVec (Format.exponentBits .binary64)}
    {m : BitVec (Format.mantissaBitsWithoutImplicit .binary64)}
    (he : unpackExponent b = e) (hm : unpackMantissa b = m) :
    packComponents .binary64 (Sign.ofBitVec (unpackSign b)) e m = b := by
  subst he hm
  have bound : b.toNat < 2 ^ 64 := b.isLt
  refine BitVec.eq_of_toNat_eq ((toNat_packComponents _ _ _).trans ?_)
  rw [toBitVec_ofBitVec, toNat_unpackSign, toNat_unpackExponent, toNat_unpackMantissa]
  omega

theorem pack_subnormal (s : Sign) {m : Nat} (hm : m < 2 ^ 52) (pos : 0 < m) :
    UnpackedFloat.pack .binary64 (.finite s m (-1074) pos) =
      packComponents .binary64 s 0#11 (BitVec.ofNat 52 m) := by
  have short : m.log2 < 52 := (Nat.log2_lt (Nat.ne_of_gt pos)).2 hm
  have width : Format.mantissaBits .binary64 = 53 := rfl
  unfold UnpackedFloat.pack
  dsimp only
  rw [biased_exponent, if_neg (by decide), if_neg (by omega)]

theorem pack_unpack (hv : Format.binary64.Valid b) :
    UnpackedFloat.pack .binary64 (UnpackedFloat.unpack .binary64 b) = b := by
  have fraction : (unpackMantissa b).toNat < 2 ^ 52 := (unpackMantissa b).isLt
  have exponent : (unpackExponent b).toNat < 2 ^ 11 := (unpackExponent b).isLt
  have unpacked := unpacksTo_unpack b
  generalize UnpackedFloat.unpack .binary64 b = u at unpacked ⊢
  cases unpacked with
  | infinity top empty => exact packComponents_unpack top empty
  | notANumber top full => exact (hv.eq_packedNaN top full).symm
  | zero bottom empty => exact packComponents_unpack bottom empty
  | subnormal bottom pos =>
    refine (pack_subnormal _ fraction pos).trans (packComponents_unpack bottom ?_)
    rw [BitVec.ofNat_toNat, BitVec.setWidth_eq]
  | normal _ not_top pos =>
    have below : (unpackExponent b).toNat ≠ 2047 := fun h => not_top (BitVec.toNat_inj.1 h)
    have log : (2 ^ 52 + (unpackMantissa b).toNat).log2 = 52 :=
      log2_of_bounds (by omega) (by omega)
    refine (pack_normal _ log (by omega) pos).trans (packComponents_unpack ?_ ?_)
    · rw [Int.sub_add_cancel, Int.toNat_natCast, BitVec.ofNat_toNat, BitVec.setWidth_eq]
    · refine BitVec.toNat_inj.1 ?_
      rw [BitVec.toNat_ofNat]
      change (unpackMantissa b).toNat = (2 ^ 52 + (unpackMantissa b).toNat) % 2 ^ 52
      omega

theorem unpack_injective {x y : Float} (h : x.toModel.unpack = y.toModel.unpack) : x = y := by
  obtain ⟨⟨b, hb⟩⟩ := x
  obtain ⟨⟨c, hc⟩⟩ := y
  have word : b.toBitVec = c.toBitVec :=
    (pack_unpack hb).symm.trans ((congrArg (UnpackedFloat.pack .binary64) h).trans (pack_unpack hc))
  obtain rfl := UInt64.toBitVec_inj.1 word
  rfl

end Parts

def mergeZeros (x : Float) : Float := if x == 0.0 then 0.0 else x

/-- Whether two numbers are the same float or both zeros. -/
def Alike (x y : Float) : Prop := mergeZeros x = mergeZeros y

def unsignedZero : UnpackedFloat → UnpackedFloat
  | .zero _ => .zero .positive
  | u => u

theorem unpack_zero : (0.0 : Float).toModel.unpack = .zero .positive := rfl

theorem unpack_mergeZeros (x : Float) :
    (mergeZeros x).toModel.unpack = unsignedZero x.toModel.unpack := by
  have test : (x == 0.0) = x.toModel.unpack.beq (.zero .positive) := rfl
  unfold mergeZeros
  rw [test]
  cases hu : x.toModel.unpack with
  | zero s => exact unpack_zero
  | notANumber => exact hu
  | infinity s => cases s <;> exact hu
  | finite s m e hm => cases s <;> exact hu

theorem alike_iff {x y : Float} :
    Alike x y ↔ unsignedZero x.toModel.unpack = unsignedZero y.toModel.unpack := by
  rw [← unpack_mergeZeros, ← unpack_mergeZeros]
  exact ⟨fun h => congrArg (fun z => z.toModel.unpack) h, unpack_injective⟩

/-- What is the same for both zeros does not change when they are merged. -/
theorem apply_mergeZeros {α : Type} {f : Float → α} (zeros : f 0.0 = f (-0.0)) (x : Float) :
    f (mergeZeros x) = f x := by
  have merged := unpack_mergeZeros x
  cases hu : x.toModel.unpack with
  | zero s =>
    rw [hu] at merged
    rw [show mergeZeros x = 0.0 from unpack_injective merged]
    cases s with
    | positive => rw [show x = 0.0 from unpack_injective hu]
    | negative => rw [zeros, show x = -0.0 from unpack_injective hu]
  | _ =>
    rw [hu] at merged
    rw [show mergeZeros x = x from unpack_injective (merged.trans hu.symm)]

theorem Alike.congr {α : Type} {f : Float → α} (zeros : f 0.0 = f (-0.0)) {x y : Float}
    (h : Alike x y) : f x = f y := by
  rw [← apply_mergeZeros zeros x, ← apply_mergeZeros zeros y, h]

theorem Alike.isNaN {x y : Float} (h : Alike x y) : x.isNaN = y.isNaN := h.congr rfl

theorem Alike.isFinite {x y : Float} (h : Alike x y) : isFinite x = isFinite y :=
  h.congr (by decide)

theorem Alike.display {x y : Float} (h : Alike x y) : display x = display y :=
  h.congr (by decide)

theorem Alike.toNat? {x y : Float} (h : Alike x y) : toNat? x = toNat? y :=
  h.congr (by decide +kernel)

theorem compare_unsignedZero (u v : UnpackedFloat) :
    (unsignedZero u).compare (unsignedZero v) = u.compare v := by
  rcases u with (_ | _) | _ | _ | ⟨_ | _, _, _, _⟩ <;>
    rcases v with (_ | _) | _ | _ | ⟨_ | _, _, _, _⟩ <;> rfl

theorem Alike.compare {x y x' y' : Float} (hx : Alike x x') (hy : Alike y y') :
    x.toModel.unpack.compare y.toModel.unpack = x'.toModel.unpack.compare y'.toModel.unpack := by
  rw [← compare_unsignedZero, alike_iff.1 hx, alike_iff.1 hy, compare_unsignedZero]

theorem Alike.beq {x y x' y' : Float} (hx : Alike x x') (hy : Alike y y') :
    (x == y) = (x' == y') := by
  change (_ == some Ordering.eq) = (_ == some Ordering.eq)
  rw [hx.compare hy]

theorem lt_iff {x y : Float} : x < y ↔ x.toModel.unpack.compare y.toModel.unpack = some .lt := by
  change decide (x.toModel.unpack.lt y.toModel.unpack = true) = true ↔ _
  rw [decide_eq_true_iff]
  exact beq_iff_eq

theorem le_iff {x y : Float} :
    x ≤ y ↔ (x.toModel.unpack.compare y.toModel.unpack).any (·.isLE) = true := by
  change decide (x.toModel.unpack.le y.toModel.unpack = true) = true ↔ _
  rw [decide_eq_true_iff]
  rfl

theorem Alike.lt {x y x' y' : Float} (hx : Alike x x') (hy : Alike y y') :
    decide (x < y) = decide (x' < y') := by
  rw [decide_eq_decide, lt_iff, lt_iff, hx.compare hy]

theorem Alike.le {x y x' y' : Float} (hx : Alike x x') (hy : Alike y y') :
    decide (x ≤ y) = decide (x' ≤ y') := by
  rw [decide_eq_decide, le_iff, le_iff, hx.compare hy]

theorem eq_of_compare_finite {s s' : Sign} {m m' : Nat} {e e' : Int} {hm : 0 < m} {hm' : 0 < m'}
    (h : UnpackedFloat.compare (.finite s m e hm) (.finite s' m' e' hm') = some .eq) :
    UnpackedFloat.finite s m e hm = .finite s' m' e' hm' := by
  have same (h : (compare e e').then (compare m m') = .eq) : e = e' ∧ m = m' := by
    rwa [Ordering.then_eq_eq, Std.compare_eq_iff_eq, Std.compare_eq_iff_eq] at h
  cases s <;> cases s'
  case positive.positive =>
    obtain ⟨he, hm⟩ := same (Option.some.inj h)
    exact finite_congr rfl hm he
  case negative.negative =>
    obtain ⟨he, hm⟩ := same (Ordering.swap_eq_eq.1 (Option.some.inj h))
    exact finite_congr rfl hm he
  all_goals cases h

theorem unsignedZero_of_compare {u v : UnpackedFloat} (h : u.compare v = some .eq) :
    unsignedZero u = unsignedZero v ∧ u ≠ .notANumber := by
  cases u with
  | notANumber => cases v <;> cases h
  | infinity s =>
    refine ⟨?_, fun h => nomatch h⟩
    cases v with
    | infinity s' => cases s <;> cases s' <;> first | rfl | cases h
    | _ => cases s <;> cases h
  | zero s =>
    refine ⟨?_, fun h => nomatch h⟩
    cases v with
    | zero s' => rfl
    | notANumber => cases h
    | infinity s' => cases s' <;> cases h
    | finite s' => cases s' <;> cases h
  | finite s =>
    refine ⟨?_, fun h => nomatch h⟩
    cases v with
    | finite s' => exact congrArg unsignedZero (eq_of_compare_finite h)
    | infinity s' => cases s <;> cases s' <;> cases h
    | notANumber => cases s <;> cases h
    | zero => cases s <;> cases h

theorem isNaN_eq_false {x : Float} : x.isNaN = false ↔ x.toModel.unpack ≠ .notANumber := by
  change x.toModel.unpack.isNaN = false ↔ _
  cases x.toModel.unpack with
  | notANumber => exact iff_of_false (fun h => nomatch h) (fun h => h rfl)
  | _ => exact iff_of_true rfl (fun h => nomatch h)

theorem isNaN_nan : nan.isNaN = true := by decide

theorem isNaN_of_isFinite {x : Float} (h : isFinite x = true) : x.isNaN = false := by
  refine isNaN_eq_false.2 fun hu => ?_
  rw [show x = nan from unpack_injective (hu.trans (show _ = nan.toModel.unpack from rfl))] at h
  exact absurd h (by decide)

theorem beq_iff {x y : Float} : (x == y) = true ↔ Alike x y ∧ x.isNaN = false := by
  rw [alike_iff, isNaN_eq_false]
  constructor
  · exact fun h => unsignedZero_of_compare (beq_iff_eq.1 h)
  · rintro ⟨alike, number⟩
    rw [← Alike.beq (x := x) rfl (alike_iff.2 alike)]
    exact compare_self number

theorem beq_comm (x y : Float) : (x == y) = (y == x) := by
  rw [Bool.eq_iff_iff, beq_iff, beq_iff]
  constructor
  all_goals
    rintro ⟨alike, number⟩
    exact ⟨alike.symm, by rwa [← alike.isNaN]⟩

theorem eq_or_zeros {u v : UnpackedFloat} (h : unsignedZero u = unsignedZero v) :
    u = v ∨ ∃ s t, u = .zero s ∧ v = .zero t := by
  cases u with
  | zero s =>
    cases v with
    | zero t => exact .inr ⟨s, t, rfl, rfl⟩
    | _ => cases h
  | _ =>
    cases v with
    | zero t => cases h
    | _ => exact .inl h

/-- Results that differ at most in the sign of a zero make like numbers. -/
theorem alike_pack {u v : UnpackedFloat} (h : unsignedZero u = unsignedZero v) :
    Alike (.ofModel (.pack u)) (.ofModel (.pack v)) := by
  rcases eq_or_zeros h with rfl | ⟨s, t, rfl, rfl⟩
  · rfl
  · cases s <;> cases t <;> rfl

theorem unsignedZero_add (u v : UnpackedFloat) :
    unsignedZero (UnpackedFloat.add .binary64 (unsignedZero u) (unsignedZero v)) =
      unsignedZero (UnpackedFloat.add .binary64 u v) := by
  rcases u with _ | _ | (_ | _) | _ <;> rcases v with _ | _ | (_ | _) | _ <;> rfl

theorem unsignedZero_sub (u v : UnpackedFloat) :
    unsignedZero (UnpackedFloat.sub .binary64 (unsignedZero u) (unsignedZero v)) =
      unsignedZero (UnpackedFloat.sub .binary64 u v) := by
  rcases u with _ | _ | (_ | _) | _ <;> rcases v with _ | _ | (_ | _) | _ <;> rfl

theorem unsignedZero_mul (u v : UnpackedFloat) :
    unsignedZero (UnpackedFloat.mul .binary64 (unsignedZero u) (unsignedZero v)) =
      unsignedZero (UnpackedFloat.mul .binary64 u v) := by
  rcases u with _ | _ | (_ | _) | _ <;> rcases v with _ | _ | (_ | _) | _ <;> rfl

theorem unsignedZero_div (u : UnpackedFloat) {v : UnpackedFloat} (hv : ∀ s, v ≠ .zero s) :
    unsignedZero (UnpackedFloat.div .binary64 (unsignedZero u) (unsignedZero v)) =
      unsignedZero (UnpackedFloat.div .binary64 u v) := by
  cases v with
  | zero s => exact absurd rfl (hv s)
  | _ => rcases u with _ | _ | (_ | _) | _ <;> rfl

section Operations
variable {x y x' y' : Float}

theorem Alike.add (hx : Alike x x') (hy : Alike y y') : Alike (x + y) (x' + y') := by
  refine alike_pack ?_
  rw [← unsignedZero_add, alike_iff.1 hx, alike_iff.1 hy, unsignedZero_add]

theorem Alike.sub (hx : Alike x x') (hy : Alike y y') : Alike (x - y) (x' - y') := by
  refine alike_pack ?_
  rw [← unsignedZero_sub, alike_iff.1 hx, alike_iff.1 hy, unsignedZero_sub]

theorem Alike.mul (hx : Alike x x') (hy : Alike y y') : Alike (x * y) (x' * y') := by
  refine alike_pack ?_
  rw [← unsignedZero_mul, alike_iff.1 hx, alike_iff.1 hy, unsignedZero_mul]

theorem unpack_ne_zero (h : (x == 0.0) = false) (s : Sign) : x.toModel.unpack ≠ .zero s := by
  intro hu
  change (x.toModel.unpack.compare (.zero .positive) == some .eq) = false at h
  rw [hu] at h
  cases h

theorem Alike.div (hx : Alike x x') (hy : Alike y y') (h : (y == 0.0) = false) :
    Alike (x / y) (x' / y') := by
  have h' : (y' == 0.0) = false := (hy.beq (y := 0.0) rfl).symm.trans h
  refine alike_pack ?_
  rw [← unsignedZero_div _ (unpack_ne_zero h), alike_iff.1 hx, alike_iff.1 hy,
    unsignedZero_div _ (unpack_ne_zero h')]

theorem Alike.neg (h : Alike x y) : Alike (-x) (-y) :=
  h.congr (f := fun x => mergeZeros (-x)) rfl

theorem parts_zero : parts 0.0 = .finite false ⟨0, -1074, false⟩ := by decide

theorem parts_negative_zero : parts (-0.0) = .finite true ⟨0, -1074, false⟩ := by decide

theorem remainder_zero (x : Float) : remainder x 0.0 = remainder x (-0.0) := by
  unfold remainder
  rw [parts_zero, parts_negative_zero]
  cases parts x <;> simp only [Nat.zero_mul, ↓reduceIte]

theorem zero_mul_cases (u : UnpackedFloat) :
    UnpackedFloat.mul .binary64 (.zero .positive) u = .notANumber ∨
      ∃ s, UnpackedFloat.mul .binary64 (.zero .positive) u = .zero s := by
  cases u with
  | notANumber | infinity s => exact .inl rfl
  | zero s | finite s m e hm => exact .inr ⟨_, rfl⟩

/-- Zero times anything is a zero or not a number. -/
theorem alike_neg_zero_mul (x : Float) : Alike (0.0 * x) (-(0.0 * x)) := by
  have product : 0.0 * x = .ofModel (.pack (UnpackedFloat.mul .binary64
    (0.0 : Float).toModel.unpack x.toModel.unpack)) := rfl
  rw [product, unpack_zero]
  rcases zero_mul_cases x.toModel.unpack with h | ⟨s, h⟩ <;> rw [h]
  · rfl
  · cases s <;> rfl

theorem zero_remainder (x : Float) : Alike (remainder 0.0 x) (remainder (-0.0) x) := by
  unfold remainder
  rw [parts_zero, parts_negative_zero]
  cases parts x with
  | finite negative b =>
    dsimp only
    split
    · rfl
    · rw [Nat.zero_mul, Nat.zero_mod]
      exact alike_neg_zero_mul _
  | infinite negative => exact (show Alike 0.0 (-0.0) from rfl)
  | nan => rfl

theorem Alike.remainder (hx : Alike x x') (hy : Alike y y') :
    Alike (remainder x y) (remainder x' y') := by
  rw [hy.congr (remainder_zero x)]
  exact hx.congr (f := fun x => mergeZeros (Number.remainder x y')) (zero_remainder y')

end Operations

end ScoreSheet.Number
