import ScoreSheet.Proofs.Json.RoundTrip
import ScoreSheet.Proofs.Number.Finite
set_option autoImplicit false

namespace ScoreSheet.Json
open Number

theorem scaleByTen_finite {steps : Nat} {x y : Float} {exponent : Int}
    (hx : isFinite x = true) (h : scaleByTen steps x exponent = some y) : isFinite y = true := by
  induction steps generalizing x exponent with
  | zero =>
    cases h
    exact hx
  | succ steps ih =>
    unfold scaleByTen at h
    split at h
    · rename_i small
      split at h
      · dsimp only at h
        split at h
        · cases h
          assumption
        · cases h
      · cases h
        exact isFinite_div hx (isLarge_tenPow (by omega) small)
    split at h
    · cases h
      exact hx
    split at h
    · cases h
    · exact ih (isFinite_div hx (isLarge_tenPow (by decide) (by decide))) h

theorem absorb_le (cs : List Char) {n : Nat} (h : n ≤ significandLimit) :
    (absorb n cs).1 ≤ significandLimit := by
  induction cs generalizing n with
  | nil => exact h
  | cons c cs ih =>
    unfold absorb
    dsimp only
    split
    · exact ih ‹_›
    · exact h

def IsNumber (v : Json) : Prop :=
  (∃ n, v = .integer n ∧ Wide n) ∨ ∃ x, v = .real x ∧ isFinite x = true

section Numbers
variable {negative : Bool} {significand : Nat} {shift : Int} {c c' : Cursor} {v : Json}

theorem isFinite_ofSignificand (h : significand ≤ significandLimit) :
    isFinite (Float.ofNat significand) = true :=
  isFinite_ofNat (Nat.lt_of_le_of_lt h (by decide))

theorem isFinite_signed {x : Float} (hx : isFinite x = true) :
    isFinite (if negative then -x else x) = true := by
  split
  · exact isFinite_neg hx
  · exact hx

theorem realNumber_value (hs : significand ≤ significandLimit)
    (h : realNumber negative significand shift c = .ok (v, c')) : IsNumber v := by
  unfold realNumber at h
  split at h
  · rename_i w hw
    cases h
    obtain ⟨x, hx, rfl⟩ := Option.map_eq_some_iff.1 hw
    exact .inr ⟨_, rfl, isFinite_signed (scaleByTen_finite (isFinite_ofSignificand hs) hx)⟩
  · cases h

theorem exponentPart_value (hs : significand ≤ significandLimit)
    (h : exponentPart negative significand shift c = .ok (v, c')) : IsNumber v := by
  unfold exponentPart at h
  dsimp only at h
  generalize (if c.rest.head? = some '+' ∨ c.rest.head? = some '-' then c.drop 1 else c) = c at h
  split at h
  · cases h
  split at h
  · exact absurd h failNext_ne_ok
  split at h
  · split at h
    · cases h
    · cases h
      refine .inr ⟨_, rfl, ?_⟩
      cases negative <;> decide
  · exact realNumber_value hs h

theorem fractionPart_value (hs : significand ≤ significandLimit)
    (h : fractionPart negative significand shift c = .ok (v, c')) : IsNumber v := by
  unfold fractionPart at h
  dsimp only at h
  split at h
  · split at h
    · cases h
    · exact absurd h failNext_ne_ok
  have more := absorb_le (digits c) hs
  unfold exponentOrEnd at h
  split at h
  · exact exponentPart_value more h
  · exact realNumber_value more h

theorem wholeNumber_value (hs : significand ≤ significandLimit) :
    IsNumber (wholeNumber negative significand) := by
  have limit : significand < 2 ^ 64 := Nat.lt_of_le_of_lt hs (by decide)
  unfold wholeNumber
  split
  · split
    · rename_i fits
      have small : significand ≤ 2 ^ 63 := fits.2
      exact .inl ⟨_, rfl, by unfold Wide; omega⟩
    · exact .inr ⟨_, rfl, isFinite_neg (isFinite_ofSignificand hs)⟩
  · exact .inl ⟨_, rfl, by unfold Wide; omega⟩

theorem number_value (h : number negative c = .ok (v, c')) : IsNumber v := by
  rw [number_eq] at h
  split at h
  · cases h
  split at h
  · exact absurd h failNext_ne_ok
  split at h
  · exact absurd h failNext_ne_ok
  have significand := absorb_le (digits c) (Nat.zero_le significandLimit)
  unfold numberTail at h
  split at h
  · exact fractionPart_value significand h
  split at h
  · exact exponentPart_value significand h
  split at h
  · cases h
    exact wholeNumber_value significand
  · exact realNumber_value significand h

end Numbers

theorem IsNumber.fits {v : Json} (h : IsNumber v) (room : Nat) :
    Fits (isFinite · = true) room v := by
  obtain ⟨n, rfl, hn⟩ | ⟨x, rfl, hx⟩ := h
  · exact .integer room hn
  · exact .real room hx

theorem listItems_fits {ok : Float → Prop} {room : Nat} {read : Read Json}
    (hv : ∀ c v c', read c = .ok (v, c') → Fits ok room v) {fuel : Nat} {isFirst : Bool}
    {c c' : Cursor} {vs : List Json} (h : listItems read fuel isFirst c = .ok (vs, c')) :
    ∀ v ∈ vs, Fits ok room v := by
  induction fuel generalizing isFirst c vs with
  | zero => cases h
  | succ fuel ih =>
    unfold listItems at h
    obtain ⟨next, -, h⟩ := bind_ok h
    cases next with
    | none =>
      cases h
      exact List.forall_mem_nil _
    | some c =>
      obtain ⟨⟨v, c⟩, read_v, h⟩ := bind_ok h
      obtain ⟨⟨vs, c⟩, read_vs, h⟩ := bind_ok h
      cases h
      exact List.forall_mem_cons.2 ⟨hv _ _ _ read_v, ih read_vs⟩

theorem keys_setMember (k : String) (v : Json) (members : List (String × Json)) :
    (setMember k v members).map Prod.fst =
      if k ∈ members.map Prod.fst then members.map Prod.fst
      else members.map Prod.fst ++ [k] := by
  induction members with
  | nil => rfl
  | cons m members ih =>
    unfold setMember
    split
    · rename_i hk
      rw [List.map_cons, List.map_cons, if_pos (hk ▸ List.mem_cons_self)]
    · rename_i hk
      rw [List.map_cons, ih, List.map_cons]
      simp only [List.mem_cons, Ne.symm hk, false_or]
      split <;> rfl

theorem nodup_setMember {members : List (String × Json)} (h : (members.map Prod.fst).Nodup)
    (k : String) (v : Json) : ((setMember k v members).map Prod.fst).Nodup := by
  rw [keys_setMember]
  split
  · exact h
  · rename_i fresh
    refine List.nodup_append.2 ⟨h, List.pairwise_singleton _ k, ?_⟩
    intro a ha b hb hab
    rw [List.mem_singleton.1 hb] at hab
    exact fresh (hab ▸ ha)

theorem mem_setMember {members : List (String × Json)} {k : String} {v : Json}
    {m : String × Json} (h : m ∈ setMember k v members) : m = (k, v) ∨ m ∈ members := by
  induction members with
  | nil => exact .inl (List.mem_singleton.1 h)
  | cons n members ih =>
    unfold setMember at h
    split at h
    · rename_i hk
      rcases List.mem_cons.1 h with h | h
      · exact .inl (hk ▸ h)
      · exact .inr (List.mem_cons_of_mem _ h)
    · rcases List.mem_cons.1 h with h | h
      · exact .inr (h ▸ List.mem_cons_self)
      · exact (ih h).imp_right (List.mem_cons_of_mem _)

theorem objectMembers_fits {ok : Float → Prop} {room : Nat} {read : Read Json}
    (hv : ∀ c v c', read c = .ok (v, c') → Fits ok room v) {fuel : Nat} {isFirst : Bool}
    {c c' : Cursor} {members ms : List (String × Json)}
    (distinct : (members.map Prod.fst).Nodup) (hm : ∀ m ∈ members, Fits ok room m.2)
    (h : objectMembers read fuel isFirst members c = .ok (ms, c')) :
    (ms.map Prod.fst).Nodup ∧ ∀ m ∈ ms, Fits ok room m.2 := by
  induction fuel generalizing isFirst c members with
  | zero => cases h
  | succ fuel ih =>
    unfold objectMembers at h
    obtain ⟨next, -, h⟩ := bind_ok h
    cases next with
    | none =>
      cases h
      exact ⟨distinct, hm⟩
    | some c =>
      obtain ⟨⟨k, c⟩, -, h⟩ := bind_ok h
      obtain ⟨c, -, h⟩ := bind_ok h
      obtain ⟨⟨v, c⟩, read_v, h⟩ := bind_ok h
      refine ih (nodup_setMember distinct k v) (fun m h => ?_) h
      rcases mem_setMember h with rfl | h
      · exact hv _ _ _ read_v
      · exact hm m h

theorem valueWith_fits {room : Nat} {inner? : Option (Read Json)}
    (hi : ∀ read ∈ inner?, ∃ k, room = k + 1 ∧
      ∀ c v c', read c = .ok (v, c') → Fits (isFinite · = true) k v)
    {c c' : Cursor} {v : Json} (h : valueWith inner? c = .ok (v, c')) :
    Fits (isFinite · = true) room v := by
  cases valueWith_begun h with
  | null => exact .null room
  | bool b => exact .bool room b
  | minus _ read => exact (number_value read).fits room
  | digit _ _ read => exact (number_value read).fits room
  | string => exact .string room _
  | array inner read =>
    obtain ⟨k, rfl, hk⟩ := hi _ inner
    exact .array (listItems_fits hk read)
  | object inner read =>
    obtain ⟨k, rfl, hk⟩ := hi _ inner
    obtain ⟨distinct, hm⟩ :=
      objectMembers_fits hk (by exact List.nodup_nil) (List.forall_mem_nil _) read
    exact .object distinct hm

theorem value_fits {room : Nat} {c c' : Cursor} {v : Json} (h : value room c = .ok (v, c')) :
    Fits (isFinite · = true) room v := by
  induction room generalizing c c' v with
  | zero => exact valueWith_fits (fun read h => absurd h (Option.not_mem_none read)) h
  | succ room ih =>
    refine valueWith_fits (fun read h => ?_) h
    cases h
    exact ⟨room, rfl, fun c v c' => ih⟩

theorem parse_fits {text : String} {v : Json} (h : parse text = .ok v) :
    Fits (isFinite · = true) nestingLimit v := by
  unfold parse at h
  obtain ⟨⟨w, c⟩, read, h⟩ := bind_ok h
  dsimp only at h
  split at h
  · cases h
    exact value_fits read
  · exact absurd h failNext_ne_ok

end ScoreSheet.Json
