import ScoreSheet.Proofs.Number.Zeros
set_option autoImplicit false

namespace ScoreSheet.Number
open Float.Model Float.Model.UnpackedFloat

theorem compare_swap (u v : UnpackedFloat) : v.compare u = (u.compare v).map Ordering.swap := by
  have oriented (e e' : Int) (m m' : Nat) : (compare e' e).then (compare m' m) =
      ((compare e e').then (compare m m')).swap := by
    rw [Ordering.swap_then, ← Std.OrientedOrd.eq_swap, ← Std.OrientedOrd.eq_swap]
  rcases u with (_ | _) | _ | _ | ⟨_ | _, m, e, _⟩ <;>
    rcases v with (_ | _) | _ | _ | ⟨_ | _, m', e', _⟩
  case finite.positive.finite.positive => exact congrArg some (oriented e e' m m')
  case finite.negative.finite.negative =>
    exact congrArg (some ·.swap) (oriented e e' m m')
  all_goals rfl

theorem beq_iff_le {x y : Float} : (x == y) = true ↔ x ≤ y ∧ y ≤ x := by
  change (x.toModel.unpack.compare y.toModel.unpack == some .eq) = true ↔ _
  rw [beq_iff_eq, le_iff, le_iff, compare_swap x.toModel.unpack]
  cases x.toModel.unpack.compare y.toModel.unpack with
  | none => exact iff_of_false (fun h => nomatch h) (fun h => nomatch h.1)
  | some o =>
    cases o with
    | lt => exact iff_of_false (fun h => nomatch h) (fun h => nomatch h.2)
    | eq => exact iff_of_true rfl ⟨rfl, rfl⟩
    | gt => exact iff_of_false (fun h => nomatch h) (fun h => nomatch h.1)

theorem compare_ne_none {u v : UnpackedFloat} (hu : u ≠ .notANumber) (hv : v ≠ .notANumber) :
    u.compare v ≠ none := by
  rcases u with (_ | _) | _ | _ | ⟨_ | _, _, _, _⟩ <;>
    rcases v with (_ | _) | _ | _ | ⟨_ | _, _, _, _⟩ <;>
    first | exact absurd rfl hu | exact absurd rfl hv | exact Option.some_ne_none _

theorem le_iff_not_lt {x y : Float} (hx : x.isNaN = false) (hy : y.isNaN = false) :
    x ≤ y ↔ ¬ y < x := by
  have compared := compare_ne_none (isNaN_eq_false.1 hx) (isNaN_eq_false.1 hy)
  rw [le_iff, lt_iff, compare_swap x.toModel.unpack]
  cases hc : x.toModel.unpack.compare y.toModel.unpack with
  | none => exact absurd hc compared
  | some o => cases o <;> simp

theorem isNaN_pack {x : Float} {u : UnpackedFloat} (hx : x.toModel = .pack u)
    (hu : u ≠ .notANumber) : x.isNaN = false := by
  refine isNaN_eq_false.2 fun none => ?_
  rw [hx] at none
  obtain ⟨top, full⟩ := fields_of_notANumber none
  cases u with
  | notANumber => exact hu rfl
  | infinity s => cases s <;> exact full (by decide)
  | zero s => cases s <;> exact absurd top (by decide)
  | finite s m e pos =>
    by_cases huge : 2 ^ 11 ≤ (e + 1075).toNat + 1
    · have packed : UnpackedFloat.pack .binary64 (.finite s m e pos) =
          packedInfinity .binary64 s := by
        unfold UnpackedFloat.pack
        dsimp only
        rw [biased_exponent, if_pos huge]
      change (UnpackedFloat.pack .binary64 (.finite s m e pos)).toNat % 2 ^ 52 ≠ 0 at full
      rw [packed] at full
      cases s <;> exact full (by decide)
    · change (UnpackedFloat.pack .binary64 (.finite s m e pos)).toNat / 2 ^ 52 % 2 ^ 11 = 2047 at top
      unfold UnpackedFloat.pack at top
      dsimp only at top
      rw [biased_exponent, if_neg huge] at top
      split at top
      · rw [field_packComponents, BitVec.toNat_ofNat] at top
        omega
      · rw [field_packComponents] at top
        exact absurd top (by decide)

theorem roundWithAccuracy_ne_notANumber (s : Sign) (m : Nat) (e : Int) (acc : Accuracy) :
    roundWithAccuracy .binary64 s m e acc ≠ .notANumber := by
  have number (m : Nat) (e : Int) :
      (if h0 : m = 0 then .zero s else .finite s m e (Nat.pos_of_ne_zero h0)) ≠
        UnpackedFloat.notANumber := by
    by_cases h0 : m = 0
    · rw [dif_pos h0]
      exact fun h => nomatch h
    · rw [dif_neg h0]
      exact fun h => nomatch h
  exact number _ _

theorem isNaN_ofNat (n : Nat) : (Float.ofNat n).isNaN = false := by
  rcases Nat.lt_or_ge n (2 ^ 53) with small | large
  · exact isNaN_of_isFinite (isFinite_ofNat (by omega))
  · exact isNaN_pack (ofNat_toModel_large large) (roundWithAccuracy_ne_notANumber _ _ _ _)

theorem unpack_ofNat {n : Nat} (h : 0 < n) (hn : n < 2 ^ 53) :
    (Float.ofNat n).toModel.unpack = unpackedWhole .positive n h hn := by
  rw [ofNat_toModel h hn]
  exact unpack_whole _ h hn

/-- Whole numbers below `2 ^ 53` have floats of their own. -/
theorem ofNat_beq_iff {m n : Nat} (hm : m < 2 ^ 53) (hn : n < 2 ^ 53) :
    (Float.ofNat m == Float.ofNat n) = true ↔ m = n := by
  constructor
  · intro h
    have same := alike_iff.1 (beq_iff.1 h).1
    rcases Nat.eq_zero_or_pos m with rfl | pos <;> rcases Nat.eq_zero_or_pos n with rfl | pos'
    · rfl
    · rw [unpack_ofNat pos' hn] at same
      cases same
    · rw [unpack_ofNat pos hm] at same
      cases same
    · rw [unpack_ofNat pos hm, unpack_ofNat pos' hn] at same
      injection same with _ digits place
      have log : m.log2 = n.log2 := by omega
      unfold significand at digits
      rw [log] at digits
      exact Nat.eq_of_mul_eq_mul_right (Nat.two_pow_pos _) digits
  · rintro rfl
    exact beq_iff.2 ⟨rfl, isNaN_ofNat m⟩

end ScoreSheet.Number
