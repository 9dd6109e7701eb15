import ScoreSheet.Proofs.Json.Numbers
import ScoreSheet.Proofs.Number.Shortest
import ScoreSheet.Proofs.Rule.LexemeReading
import ScoreSheet.Rule.Value
set_option autoImplicit false

/-! The digits that are shown for a number are a numeral whose decimal lies among the numbers that
round to it. So the text of a number stands for the same number, except that both zeros have
the text of the positive one. -/
namespace ScoreSheet.Rule
open Text

theorem ofDigits_eq (cs : List Char) : Number.ofDigits cs = Nat.ofDigitChars 10 cs 0 := by
  unfold Number.ofDigits
  rw [Nat.ofDigitChars_eq_foldl]
  congr 1
  funext n c
  rw [Nat.mul_comm]
  rfl

theorem ofDigits_toDigits (n : Nat) : Number.ofDigits (Nat.toDigits 10 n) = n := by
  rw [ofDigits_eq, Nat.ofDigitChars_ten_toDigits]

theorem ofDigits_zeros_behind (n k : Nat) :
    Number.ofDigits (Nat.toDigits 10 n ++ List.replicate k '0') = n * 10 ^ k := by
  rw [ofDigits_eq, Nat.ofDigitChars_append, Nat.ofDigitChars_ten_toDigits,
    Nat.ofDigitChars_replicate_zero, Nat.mul_comm]

theorem ofDigits_zeros_before (n k : Nat) :
    Number.ofDigits ('0' :: (List.replicate k '0' ++ Nat.toDigits 10 n)) = n := by
  rw [ofDigits_eq, ← List.cons_append, ← List.replicate_succ, Nat.ofDigitChars_append,
    Nat.ofDigitChars_replicate_zero, Nat.mul_zero, Nat.ofDigitChars_ten_toDigits]

theorem exists_digits (ds : List Char) (hd : ∀ c ∈ ds, Number.isDigit c) (hne : ds ≠ []) :
    ∃ numeral : Numeral, numeral.spelling = ds ∧
      numeral.value = Number.ofDecimal (Number.ofDigits ds) 0 := by
  refine ⟨⟨ds, none, none, hd, (fun _ h => nomatch h), .inl hne⟩, List.append_nil _, ?_⟩
  exact congrArg (fun cs => Number.ofDecimal (Number.ofDigits cs) 0) (List.append_nil ds)

theorem exists_pointed (ds fs : List Char) (hd : ∀ c ∈ ds, Number.isDigit c)
    (hf : ∀ c ∈ fs, Number.isDigit c) (hne : ds ≠ []) :
    ∃ numeral : Numeral, numeral.spelling = ds ++ '.' :: fs ∧
      numeral.value = Number.ofDecimal (Number.ofDigits (ds ++ fs)) (-fs.length) := by
  refine ⟨⟨ds, some fs, none, hd, ?_, .inl hne⟩, congrArg (ds ++ ·) (List.append_nil _), ?_⟩
  · rintro _ ⟨⟩
    exact hf
  · exact congrArg (Number.ofDecimal _) (Int.zero_sub _)

/-- Positional text is a numeral with the digits of the decimal, up to zeros behind them. -/
theorem exists_positional (d : Number.Decimal) : ∃ (numeral : Numeral) (k : Nat),
    numeral.spelling = d.positional ∧
      numeral.value = Number.ofDecimal (d.digits * 10 ^ k) (d.exponent - k) := by
  have digits : ∀ c ∈ Nat.toDigits 10 d.digits, Number.isDigit c :=
    fun _ hc => Json.isDigit_of_mem_toDigits hc
  have zeros (n : Nat) : ∀ c ∈ List.replicate n '0', Number.isDigit c := by
    intro c hc
    rw [List.eq_of_mem_replicate hc]
    rfl
  unfold Number.Decimal.positional
  dsimp only
  split
  · obtain ⟨numeral, spelled, value⟩ := exists_digits _
      (List.forall_mem_append.2 ⟨digits, zeros d.exponent.toNat⟩)
      (List.append_ne_nil_of_left_ne_nil Nat.toDigits_ne_nil _)
    refine ⟨numeral, d.exponent.toNat, spelled, ?_⟩
    rw [value, ofDigits_zeros_behind]
    congr 1
    omega
  · split
    · obtain ⟨numeral, spelled, value⟩ := exists_pointed
        ((Nat.toDigits 10 d.digits).take
          ((Nat.toDigits 10 d.digits).length - (-d.exponent).toNat)) _
        (fun c hc => digits c (List.mem_of_mem_take hc))
        (fun c hc => digits c (List.mem_of_mem_drop hc)) (by
          rw [← List.length_pos_iff, List.length_take]
          omega)
      refine ⟨numeral, 0, spelled, ?_⟩
      rw [value, List.take_append_drop, ofDigits_toDigits, List.length_drop, Nat.pow_zero,
        Nat.mul_one]
      congr 1
      omega
    · obtain ⟨numeral, spelled, value⟩ := exists_pointed ['0'] _
        (List.forall_mem_singleton.2 rfl) (List.forall_mem_append.2
          ⟨zeros ((-d.exponent).toNat - (Nat.toDigits 10 d.digits).length), digits⟩)
        (List.cons_ne_nil _ _)
      refine ⟨numeral, 0, spelled, ?_⟩
      rw [value, List.singleton_append, ofDigits_zeros_before, List.length_append,
        List.length_replicate, Nat.pow_zero, Nat.mul_one]
      congr 1
      omega

/-- The digits of a number other than zero are a numeral that stands for it. -/
theorem exists_shown {x : Float} {negative : Bool} {b : Number.Binary}
    (h : Number.parts x = .finite negative b) (pos : 0 < b.mantissa) : ∃ numeral : Numeral,
      Number.display x = Number.signed negative numeral.spelling ∧
        (if negative then -numeral.value else numeral.value) = x := by
  have shown : ∃ (numeral : Numeral) (m : Nat) (e : Int),
      Number.display x = Number.signed negative numeral.spelling ∧
        numeral.value = Number.ofDecimal m e ∧ b.Covers (m * 10 ^ e) := by
    unfold Number.display
    rw [h]
    dsimp only
    rw [if_neg pos.ne']
    split
    · rename_i whole
      obtain ⟨integral, -⟩ := Bool.and_eq_true_iff.1 whole
      obtain ⟨numeral, spelled, value⟩ := exists_digits (Nat.toDigits 10 b.floor)
        (fun _ hc => Json.isDigit_of_mem_toDigits hc) Nat.toDigits_ne_nil
      rw [ofDigits_toDigits] at value
      refine ⟨numeral, _, _, spelled ▸ rfl, value, ?_⟩
      rw [zpow_zero, mul_one, Number.Binary.value_floor integral]
      exact b.covers_value
    · obtain ⟨numeral, k, spelled, value⟩ := exists_positional (b.shortest .upward)
      refine ⟨numeral, _, _, spelled ▸ rfl, value, ?_⟩
      have scaled : (((b.shortest .upward).digits * 10 ^ k : ℕ) : ℚ) *
          10 ^ ((b.shortest .upward).exponent - k) = (b.shortest .upward).value := by
        rw [Number.Decimal.value, zpow_sub₀ Number.ten_ne_zero, zpow_natCast]
        push_cast
        field_simp
      rw [scaled]
      exact Number.Binary.covers_shortest pos .upward
  obtain ⟨numeral, m, e, display, value, covers⟩ := shown
  exact ⟨numeral, display, value ▸ Number.ofDecimal_eq h pos covers⟩

theorem Numeral.visible (n : Numeral) : ∀ c ∈ n.spelling, Visible c := by
  have sign {c : Char} (h : c = '+' ∨ c = '-' ∨ c = '.' ∨ c = 'e' ∨ c = 'E') : Visible c := by
    rcases h with rfl | rfl | rfl | rfl | rfl <;> exact ⟨by decide, by decide⟩
  refine List.forall_mem_append.2 ⟨fun c hc => visible_of_isDigit (n.isDigit_whole c hc),
    List.forall_mem_append.2 ⟨?fraction, ?exponent⟩⟩
  case fraction =>
    unfold fractionSpelling
    split
    · exact List.forall_mem_nil _
    · rename_i ds hds
      exact List.forall_mem_cons.2 ⟨sign (by simp),
        fun c hc => visible_of_isDigit (n.isDigit_fraction ds hds c hc)⟩
  case exponent =>
    unfold exponentSpelling
    split
    · exact List.forall_mem_nil _
    · rename_i e _
      refine List.forall_mem_cons.2 ⟨sign (by simp [e.mark_eq]), List.forall_mem_append.2
        ⟨fun c hc => sign ?_, fun c hc => visible_of_isDigit (e.isDigit c hc)⟩⟩
      rcases e.sign_eq with h | h | h <;> rw [h] at hc <;> simp_all

theorem trim_eq_self {cs : List Char} (h : ∀ c ∈ cs, isBlank c = false) : trim cs = cs := by
  have first (cs : List Char) (h : ∀ c ∈ cs, isBlank c = false) : cs.dropWhile isBlank = cs := by
    cases cs with
    | nil => rfl
    | cons c cs => exact List.dropWhile_cons_of_neg (by rw [h c List.mem_cons_self]; decide)
  rw [trim, first cs h, first _ fun c hc => h c (List.mem_reverse.1 hc), List.reverse_reverse]

theorem numberOfText_of_read? {s : String} {x : Float} (visible : ∀ c ∈ s.toList, isBlank c = false)
    (h : Number.read? s.toList = some x) : numberOfText s = x := by
  have other {cs : List Char} (unread : (Number.read? cs).isNone = true) : s.toList ≠ cs := by
    rintro rfl
    rw [h] at unread
    cases unread
  unfold numberOfText
  rw [trim_eq_self visible]
  split
  · exact absurd ‹_› (other rfl)
  · rw [if_neg (not_or.2 ⟨other (by decide), other (by decide)⟩), if_neg (other (by decide)), h]
    rfl

def SameNumber (x y : Float) : Prop := (x == y) = true ∨ x.isNaN = true ∧ y.isNaN = true

theorem SameNumber.of_eq {x y : Float} (h : x = y) : SameNumber x y := by
  subst h
  cases hn : x.isNaN with
  | false => exact .inl (Number.beq_iff.2 ⟨rfl, hn⟩)
  | true => exact .inr ⟨hn, hn⟩

theorem read?_minus (n : Numeral) : Number.read? ('-' :: n.spelling) = some (-n.value) := by
  have plain := read?_spelling n
  unfold Number.read? at plain ⊢
  rw [n.unsigned_spelling] at plain
  rw [show Number.unsigned ('-' :: n.spelling) = (true, n.spelling) from rfl]
  dsimp only at plain ⊢
  split at plain
  · cases plain
  · rename_i digits
    rw [if_neg digits]
    obtain ⟨e, he, value⟩ := Option.map_eq_some_iff.1 plain
    rw [if_neg Bool.false_ne_true] at value
    rw [he, Option.map_some, if_pos rfl, value]

/-- The text of a number stands for the number. -/
theorem numberOfText_display (x : Float) : SameNumber x (numberOfText (Number.display x)) := by
  cases h : Number.parts x with
  | nan =>
    unfold Number.display
    rw [h]
    exact .inr ⟨Number.isNaN_of_parts h, by decide⟩
  | infinite negative =>
    unfold Number.display
    rw [h, Number.eq_infinity_of_parts h]
    cases negative with
    | false => exact .of_eq rfl
    | true => exact .of_eq rfl
  | finite negative b =>
    rcases Nat.eq_zero_or_pos b.mantissa with none | pos
    · rcases Number.eq_zero_of_parts h none with rfl | rfl
      · exact .inl (by decide)
      · exact .inl (by decide)
    · obtain ⟨numeral, shown, value⟩ := exists_shown h pos
      have visible : ∀ c ∈ (Number.signed negative numeral.spelling).toList, isBlank c = false := by
        rw [Number.signed, String.toList_ofList]
        split
        · exact List.forall_mem_cons.2 ⟨by decide, fun c hc => (numeral.visible c hc).not_blank⟩
        · exact fun c hc => (numeral.visible c hc).not_blank
      rw [shown]
      refine .of_eq (numberOfText_of_read? visible ?_).symm
      rw [Number.signed, String.toList_ofList]
      cases negative with
      | false => exact (read?_spelling numeral).trans (congrArg some value)
      | true => exact (read?_minus numeral).trans (congrArg some value)

end ScoreSheet.Rule
