import Mathlib.Algebra.Group.Int.Defs
import ScoreSheet.Proofs.Json.Strings
import ScoreSheet.Proofs.Text.Run
set_option autoImplicit false

namespace ScoreSheet.Json
open Text

/-- The text does not go on with a numeral. -/
def Delimited (rest : List Char) : Prop :=
  ∀ c ∈ rest.head?, Number.isDigit c = false ∧ c ≠ '.' ∧ c ≠ 'e' ∧ c ≠ 'E'

theorem Delimited.endsRun {rest : List Char} (h : Delimited rest) :
    EndsRun Number.isDigit rest :=
  fun c hc => (h c hc).1

theorem Delimited.head_ne {rest : List Char} (h : Delimited rest) {c : Char}
    (hc : c = '.' ∨ c = 'e' ∨ c = 'E') : rest.head? ≠ some c := by
  intro hr
  obtain ⟨-, hp, he, hE⟩ := h c hr
  rcases hc with hc | hc | hc
  · exact hp hc
  · exact he hc
  · exact hE hc

theorem isDigit_of_mem_toDigits {n : Nat} {c : Char} (h : c ∈ Nat.toDigits 10 n) :
    Number.isDigit c = true := by
  have digit := Nat.isDigit_of_mem_toDigits (by decide) (by decide) h
  simpa [Number.isDigit, Char.isDigit, Char.le_def] using digit

theorem le_ofDigitChars (cs : List Char) (n : Nat) : n ≤ Nat.ofDigitChars 10 cs n := by
  induction cs generalizing n with
  | nil => exact Nat.le_of_eq Nat.ofDigitChars_nil.symm
  | cons c cs ih =>
    rw [Nat.ofDigitChars_cons]
    refine Nat.le_trans ?_ (ih _)
    omega

theorem absorb_fits (cs : List Char) {n : Nat} (h : Nat.ofDigitChars 10 cs n ≤ significandLimit) :
    absorb n cs = (Nat.ofDigitChars 10 cs n, []) := by
  induction cs generalizing n with
  | nil => rw [absorb, Nat.ofDigitChars_nil]
  | cons c cs ih =>
    rw [Nat.ofDigitChars_cons] at h ⊢
    have next : n * 10 + Number.digitValue c = 10 * n + (c.toNat - '0'.toNat) := by
      rw [Nat.mul_comm]
      rfl
    rw [absorb, next, if_pos (Nat.le_trans (le_ofDigitChars cs _) h), ih h]

theorem head?_toDigits {n : Nat} (h : (Nat.toDigits 10 n).head? = some '0') :
    (Nat.toDigits 10 n).length = 1 := by
  induction n using Nat.strongRecOn with
  | _ n ih =>
    rcases Nat.lt_or_ge n 10 with hn | hn
    · rw [Nat.toDigits_of_lt_base hn]
      rfl
    · -- The digits in front of the last one are those of a smaller number, which is not zero.
      obtain ⟨d, ds, hd⟩ :=
        List.exists_cons_of_ne_nil (Nat.toDigits_ne_nil (n := n / 10) (b := 10))
      rw [Nat.toDigits_of_base_le (by decide) hn, hd] at h
      obtain rfl : d = '0' := Option.some.inj h
      have one := ih (n / 10) (by omega) (by rw [hd]; rfl)
      obtain rfl : ds = [] := by
        rw [hd] at one
        exact List.length_eq_zero_iff.1 (Nat.succ.inj one)
      have zero : n / 10 = 0 := by
        rw [← Nat.ofDigitChars_ten_toDigits (n := n / 10), hd]
        rfl
      omega

theorem number_digits (negative : Bool) {n : Nat} (hn : n ≤ significandLimit) {rest : List Char}
    (hr : Delimited rest) :
    Reads (number negative) (Nat.toDigits 10 n) (wholeNumber negative n) rest := by
  intro p
  refine ⟨p.advanceAll (Nat.toDigits 10 n), ?_⟩
  have run : digits ⟨Nat.toDigits 10 n ++ rest, p⟩ = Nat.toDigits 10 n :=
    takeWhile_run (fun c hc => isDigit_of_mem_toDigits hc) hr.endsRun
  have some_digit : (Nat.toDigits 10 n).isEmpty = false :=
    List.isEmpty_eq_false_iff.2 Nat.toDigits_ne_nil
  have not_empty : (Nat.toDigits 10 n ++ rest).isEmpty = false :=
    List.isEmpty_eq_false_iff.2 (List.append_ne_nil_of_left_ne_nil Nat.toDigits_ne_nil _)
  have no_zero : ¬ ((Nat.toDigits 10 n).head? = some '0' ∧ 1 < (Nat.toDigits 10 n).length) :=
    fun h => Nat.ne_of_gt h.2 (head?_toDigits h.1)
  have value := absorb_fits (Nat.toDigits 10 n) (n := 0) (by rwa [Nat.ofDigitChars_ten_toDigits])
  have no_point : rest.head? ≠ some '.' := hr.head_ne (.inl rfl)
  have no_mark : ¬ (rest.head? = some 'e' ∨ rest.head? = some 'E') :=
    not_or.2 ⟨hr.head_ne (.inr (.inl rfl)), hr.head_ne (.inr (.inr rfl))⟩
  unfold number Cursor.drop
  dsimp only
  rw [run, not_empty, some_digit, if_neg (by decide), if_neg (by decide), if_neg no_zero, value,
    Nat.ofDigitChars_ten_toDigits]
  dsimp only
  rw [List.drop_left, List.take_left, if_neg no_point, if_neg no_mark]
  rfl

def integerText (n : Int) : List Char :=
  if n < 0 then '-' :: Nat.toDigits 10 n.natAbs else Nat.toDigits 10 n.natAbs

theorem toList_toString (n : Int) : (toString n).toList = integerText n := by
  unfold integerText
  cases n with
  | ofNat n =>
    rw [if_neg (show ¬ Int.ofNat n < 0 from Int.not_lt.2 (Int.natCast_nonneg n))]
    exact Nat.toList_repr
  | negSucc n =>
    rw [if_pos (Int.negSucc_lt_zero n)]
    change ("-" ++ Nat.repr (n + 1)).toList = _
    rw [String.toList_append, Nat.toList_repr]
    rfl

def Wide (n : Int) : Prop := -2 ^ 63 ≤ n ∧ n < 2 ^ 64

theorem wholeNumber_natAbs {n : Int} (h : Wide n) :
    wholeNumber (decide (n < 0)) n.natAbs = .integer n := by
  obtain ⟨low, high⟩ := h
  unfold wholeNumber
  by_cases hn : n < 0
  · have fits : 0 < n.natAbs ∧ n.natAbs ≤ Nat.pow 2 63 := by
      change 0 < n.natAbs ∧ n.natAbs ≤ 2 ^ 63
      omega
    rw [decide_eq_true hn, if_pos rfl, if_pos fits]
    congr 1
    omega
  · rw [decide_eq_false hn, if_neg (by decide)]
    congr 1
    omega

/-- What is read from a whole text is read in front of anything that cannot go on with a
numeral. -/
def Extends (read : Read Json) : Prop :=
  ∀ text p v c, read ⟨text, p⟩ = .ok (v, c) → c.rest <:+ text ∧
    ∀ rest, Delimited rest → ∀ p, ∃ q, read ⟨text ++ rest, p⟩ = .ok (v, ⟨c.rest ++ rest, q⟩)

theorem digits_append (text : List Char) {rest : List Char} (hr : Delimited rest)
    (p q : Position) : digits ⟨text ++ rest, p⟩ = digits ⟨text, q⟩ := by
  unfold digits
  induction text with
  | nil => exact takeWhile_run (fun c hc => absurd hc List.not_mem_nil) hr.endsRun
  | cons c text ih =>
    dsimp only at ih ⊢
    rw [List.cons_append, List.takeWhile_cons, List.takeWhile_cons, ih]

theorem length_digits_le (text : List Char) (p : Position) :
    (digits ⟨text, p⟩).length ≤ text.length :=
  (List.takeWhile_prefix _).length_le

theorem drop_append {text : List Char} {n : Nat} (h : n ≤ text.length) (rest : List Char)
    (p : Position) : ∃ q, Cursor.drop ⟨text ++ rest, p⟩ n = ⟨text.drop n ++ rest, q⟩ := by
  unfold Cursor.drop
  dsimp only
  rw [List.drop_append_of_le_length h]
  exact ⟨_, rfl⟩

theorem realNumber_extends (negative : Bool) (significand : Nat) (exponent : Int) :
    Extends (realNumber negative significand exponent) := by
  intro text p v c h
  unfold realNumber at h ⊢
  split at h
  · rename_i real hv
    cases h
    exact ⟨List.suffix_refl _, fun rest _ p => ⟨p, rfl⟩⟩
  · cases h

theorem failNext_ne_ok {α : Type} {c : Cursor} {fault : SyntaxFault} {x : α} :
    c.failNext fault ≠ .ok x := by
  unfold Cursor.failNext
  split <;> exact fun h => nomatch h

def exponentTail (minus negative : Bool) (significand : Nat) (shift : Int) : Read Json := fun c =>
  if c.rest.isEmpty then c.fail .endOfValue
  else if (digits c).isEmpty then c.failNext .invalidNumber
  else if exponentDigits 0 (digits c) < (digits c).length then
    if significand ≠ 0 ∧ ¬ minus then
      (c.drop (exponentDigits 0 (digits c) + 1)).fail .numberOutOfRange
    else .ok (.real (if negative then -0.0 else 0.0), c.drop (digits c).length)
  else
    realNumber negative significand (if minus then shift - (Number.ofDigits (digits c) : Int)
      else shift + (Number.ofDigits (digits c) : Int)) (c.drop (digits c).length)

theorem exponentPart_cons (negative : Bool) (significand : Nat) (shift : Int) (x : Char)
    (text : List Char) (p : Position) : exponentPart negative significand shift ⟨x :: text, p⟩ =
      if x = '+' ∨ x = '-' then
        exponentTail (x = '-') negative significand shift ⟨text, p.advance x⟩
      else exponentTail false negative significand shift ⟨x :: text, p⟩ := by
  unfold exponentPart exponentTail
  by_cases hp : x = '+'
  · simp [hp, Cursor.drop, Position.advanceAll]
  by_cases hm : x = '-'
  · simp [hm, Cursor.drop, Position.advanceAll]
  · simp [hp, hm]

theorem exponentTail_extends (minus negative : Bool) (significand : Nat) (shift : Int) :
    Extends (exponentTail minus negative significand shift) := by
  intro text p v c h
  unfold exponentTail at h ⊢
  dsimp only at h ⊢
  have same (rest : List Char) (hr : Delimited rest) (p' : Position) :=
    digits_append text hr p' p
  have dropped := drop_append (length_digits_le text p)
  split at h
  · cases h
  rename_i ht
  have still_text (rest : List Char) : ¬ (text ++ rest).isEmpty := by
    simp_all
  split at h
  · exact absurd h failNext_ne_ok
  split at h
  · split at h
    · cases h
    · rename_i hd hl hz
      cases h
      refine ⟨List.drop_suffix _ _, fun rest hr p' => ?_⟩
      obtain ⟨q, hq⟩ := dropped rest p'
      refine ⟨q, ?_⟩
      rw [same rest hr p', if_neg (still_text rest), if_neg hd, if_pos hl, if_neg hz, hq]
      rfl
  · rename_i hd hl
    obtain ⟨hs, hx⟩ := realNumber_extends _ _ _ _ _ _ _ h
    refine ⟨hs.trans (List.drop_suffix _ _), fun rest hr p' => ?_⟩
    obtain ⟨q, hq⟩ := dropped rest p'
    obtain ⟨q', hq'⟩ := hx rest hr q
    refine ⟨q', ?_⟩
    rw [same rest hr p', if_neg (still_text rest), if_neg hd, if_neg hl, hq]
    exact hq'

theorem exponentPart_extends (negative : Bool) (significand : Nat) (shift : Int) :
    Extends (exponentPart negative significand shift) := by
  intro text p v c h
  cases text with
  | nil => cases h
  | cons x text =>
    rw [exponentPart_cons] at h
    simp only [List.cons_append, exponentPart_cons]
    split at h
    · rename_i hx
      obtain ⟨hs, ht⟩ := exponentTail_extends _ _ _ _ _ _ _ _ h
      refine ⟨hs.trans (List.suffix_cons x text), fun rest hr p' => ?_⟩
      rw [if_pos hx]
      exact ht rest hr _
    · rename_i hx
      obtain ⟨hs, ht⟩ := exponentTail_extends _ _ _ _ _ _ _ _ h
      refine ⟨hs, fun rest hr p' => ?_⟩
      rw [if_neg hx]
      exact ht rest hr _

theorem head?_append {text rest : List Char} (hr : Delimited rest) {x : Char}
    (hx : x = '.' ∨ x = 'e' ∨ x = 'E') :
    (text ++ rest).head? = some x ↔ text.head? = some x := by
  cases text with
  | nil => simp [hr.head_ne hx]
  | cons c text => rfl

theorem mark_append {text rest : List Char} (hr : Delimited rest) :
    ((text ++ rest).head? = some 'e' ∨ (text ++ rest).head? = some 'E') ↔
      (text.head? = some 'e' ∨ text.head? = some 'E') :=
  or_congr (head?_append hr (.inr (.inl rfl))) (head?_append hr (.inr (.inr rfl)))

theorem drop_one {text : List Char} {x : Char} (h : text.head? = some x) (rest : List Char)
    (p : Position) : ∃ q, Cursor.drop ⟨text ++ rest, p⟩ 1 = ⟨text.drop 1 ++ rest, q⟩ := by
  refine drop_append ?_ rest p
  cases text with
  | nil => cases h
  | cons c text => exact Nat.succ_le_succ (Nat.zero_le _)

theorem exponentOrEnd_extends (negative : Bool) (significand : Nat) (shift : Int) :
    Extends (exponentOrEnd negative significand shift) := by
  intro text p v c h
  unfold exponentOrEnd at h ⊢
  dsimp only at h ⊢
  split at h
  · rename_i hm
    obtain ⟨hs, hx⟩ := exponentPart_extends _ _ _ _ _ _ _ h
    refine ⟨hs.trans (List.drop_suffix _ _), fun rest hr p' => ?_⟩
    obtain ⟨x, hx'⟩ : ∃ x, text.head? = some x := by
      rcases hm with hm | hm <;> exact ⟨_, hm⟩
    obtain ⟨q, hq⟩ := drop_one hx' rest p'
    rw [if_pos ((mark_append hr).2 hm), hq]
    exact hx rest hr q
  · rename_i hm
    obtain ⟨hs, hx⟩ := realNumber_extends _ _ _ _ _ _ _ h
    refine ⟨hs, fun rest hr p' => ?_⟩
    rw [if_neg (mt (mark_append hr).1 hm)]
    exact hx rest hr p'

theorem fractionPart_extends (negative : Bool) (significand : Nat) (shift : Int) :
    Extends (fractionPart negative significand shift) := by
  intro text p v c h
  unfold fractionPart at h ⊢
  dsimp only at h ⊢
  split at h
  · split at h
    · cases h
    · exact absurd h failNext_ne_ok
  · rename_i hd
    obtain ⟨hs, hx⟩ := exponentOrEnd_extends _ _ _ _ _ _ _ h
    refine ⟨hs.trans (List.drop_suffix _ _), fun rest hr p' => ?_⟩
    obtain ⟨q, hq⟩ := drop_append (length_digits_le text p) rest p'
    rw [digits_append text hr p' p, if_neg hd, hq]
    exact hx rest hr q

def numberTail (negative : Bool) (significand : Nat) (excess : List Char) : Read Json := fun c =>
  if c.rest.head? = some '.' then fractionPart negative significand excess.length (c.drop 1)
  else if c.rest.head? = some 'e' ∨ c.rest.head? = some 'E' then
    exponentPart negative significand excess.length (c.drop 1)
  else if excess.isEmpty then .ok (wholeNumber negative significand, c)
  else realNumber negative significand excess.length c

theorem numberTail_extends (negative : Bool) (significand : Nat) (excess : List Char) :
    Extends (numberTail negative significand excess) := by
  intro text p v c h
  unfold numberTail at h ⊢
  dsimp only at h ⊢
  split at h
  · rename_i hp
    obtain ⟨hs, hx⟩ := fractionPart_extends _ _ _ _ _ _ _ h
    refine ⟨hs.trans (List.drop_suffix _ _), fun rest hr p' => ?_⟩
    obtain ⟨q, hq⟩ := drop_one hp rest p'
    rw [if_pos ((head?_append hr (.inl rfl)).2 hp), hq]
    exact hx rest hr q
  rename_i hp
  have no_point (rest : List Char) (hr : Delimited rest) : (text ++ rest).head? ≠ some '.' :=
    mt (head?_append hr (.inl rfl)).1 hp
  split at h
  · rename_i hm
    obtain ⟨x, hx'⟩ : ∃ x, text.head? = some x := by
      rcases hm with hm | hm <;> exact ⟨_, hm⟩
    obtain ⟨hs, hx⟩ := exponentPart_extends _ _ _ _ _ _ _ h
    refine ⟨hs.trans (List.drop_suffix _ _), fun rest hr p' => ?_⟩
    obtain ⟨q, hq⟩ := drop_one hx' rest p'
    rw [if_neg (no_point rest hr), if_pos ((mark_append hr).2 hm), hq]
    exact hx rest hr q
  rename_i hm
  split at h
  · rename_i he
    cases h
    refine ⟨List.suffix_refl _, fun rest hr p' => ⟨p', ?_⟩⟩
    rw [if_neg (no_point rest hr), if_neg (mt (mark_append hr).1 hm), if_pos he]
  · rename_i he
    obtain ⟨hs, hx⟩ := realNumber_extends _ _ _ _ _ _ _ h
    refine ⟨hs, fun rest hr p' => ?_⟩
    rw [if_neg (no_point rest hr), if_neg (mt (mark_append hr).1 hm), if_neg he]
    exact hx rest hr p'

theorem number_eq (negative : Bool) (c : Cursor) : number negative c =
    if c.rest.isEmpty then c.fail .endOfValue
    else if (digits c).isEmpty then c.failNext .invalidNumber
    else if (digits c).head? = some '0' ∧ 1 < (digits c).length then
      (c.drop 1).failNext .invalidNumber
    else numberTail negative (absorb 0 (digits c)).1 (absorb 0 (digits c)).2
      (c.drop (digits c).length) :=
  rfl

theorem number_extends (negative : Bool) : Extends (number negative) := by
  intro text p v c h
  rw [number_eq] at h
  split at h
  · cases h
  rename_i ht
  split at h
  · exact absurd h failNext_ne_ok
  rename_i hd
  split at h
  · exact absurd h failNext_ne_ok
  rename_i hz
  obtain ⟨hs, hx⟩ := numberTail_extends _ _ _ _ _ _ _ h
  refine ⟨hs.trans (List.drop_suffix _ _), fun rest hr p' => ?_⟩
  have still_text : ¬ (text ++ rest).isEmpty := by simp_all
  obtain ⟨q, hq⟩ := drop_append (length_digits_le text p) rest p'
  rw [number_eq, digits_append text hr p' p, if_neg still_text, if_neg hd, if_neg hz, hq]
  exact hx rest hr q

end ScoreSheet.Json
