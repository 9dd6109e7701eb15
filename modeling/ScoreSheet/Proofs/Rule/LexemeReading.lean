import ScoreSheet.Proofs.Rule.Lexeme
import ScoreSheet.Proofs.Text.Run
set_option autoImplicit false

namespace ScoreSheet.Rule
open Text

def Delimited (rest : List Char) : Prop := ∀ c ∈ rest.head?, isBlank c

/-! ## Classes of characters -/

/-- Characters between the control characters and the first blank beyond ASCII. -/
structure Visible (c : Char) : Prop where
  low : 32 < c.toNat
  high : c.toNat < 0x85

theorem Visible.not_blank {c : Char} (h : Visible c) : isBlank c = false :=
  isBlank_eq_false h.low h.high

theorem Delimited.endsRun {p : Char → Bool} {rest : List Char} (h : Delimited rest)
    (hp : ∀ c, p c → Visible c) : EndsRun p rest := by
  intro c hc
  refine Bool.eq_false_iff.2 fun hpc => ?_
  have blank := h c hc
  rw [(hp c hpc).not_blank] at blank
  cases blank

theorem Delimited.head_ne {rest : List Char} (h : Delimited rest) {c : Char} (hc : Visible c) :
    rest.head? ≠ some c := by
  intro he
  have blank := h c he
  rw [hc.not_blank] at blank
  cases blank

theorem visible_of_isDigit {c : Char} (h : Number.isDigit c) : Visible c := by
  have bounds := isDigit_iff.1 h
  exact ⟨by omega, by omega⟩

theorem isNameStart_bounds {c : Char} (h : isNameStart c) : c.toNat = 36 ∨
    65 ≤ c.toNat ∧ c.toNat ≤ 90 ∨ c.toNat = 95 ∨ 97 ≤ c.toNat ∧ c.toNat ≤ 122 := by
  unfold isNameStart at h
  delta Char.isAlpha Char.isUpper Char.isLower at h
  simp only [Bool.or_eq_true, Bool.and_eq_true, decide_eq_true_eq, ge_iff_le,
    UInt32.le_iff_toNat_le] at h
  rcases h with ((h | h) | rfl) | rfl
  · have bounds : 65 ≤ c.toNat ∧ c.toNat ≤ 90 := h
    omega
  · have bounds : 97 ≤ c.toNat ∧ c.toNat ≤ 122 := h
    omega
  · decide
  · decide

theorem isNameChar_iff {c : Char} : isNameChar c ↔ isNameStart c ∨ Number.isDigit c := by
  have digit : c.isDigit = Number.isDigit c := rfl
  simp only [isNameChar, isNameStart, Char.isAlphanum, digit, Bool.or_eq_true]
  constructor
  · rintro (((h | h) | h) | h) <;> simp only [h, true_or, or_true]
  · rintro (((h | h) | h) | h) <;> simp only [h, true_or, or_true]

theorem visible_of_isNameStart {c : Char} (h : isNameStart c) : Visible c := by
  have bounds := isNameStart_bounds h
  exact ⟨by omega, by omega⟩

theorem visible_of_isNameChar {c : Char} (h : isNameChar c) : Visible c := by
  rcases isNameChar_iff.1 h with h | h
  · exact visible_of_isNameStart h
  · exact visible_of_isDigit h

theorem isNameStart_of_isDigit {c : Char} (h : Number.isDigit c) : isNameStart c = false := by
  refine Bool.eq_false_iff.2 fun hn => ?_
  have start := isNameStart_bounds hn
  have digit := isDigit_iff.1 h
  omega

theorem isDigit_of_isNameStart {c : Char} (h : isNameStart c) : Number.isDigit c = false := by
  refine Bool.eq_false_iff.2 fun hn => ?_
  rw [isNameStart_of_isDigit hn] at h
  cases h

theorem Delimited.startsWithDigit {rest : List Char} (h : Delimited rest) :
    startsWithDigit rest = false := by
  cases rest with
  | nil => rfl
  | cons c rest => exact h.endsRun (fun _ => visible_of_isDigit) c rfl

theorem Position.advanceAll_append (p : Position) (cs ds : List Char) :
    p.advanceAll (cs ++ ds) = (p.advanceAll cs).advanceAll ds :=
  List.foldl_append

/-! ## Numerals -/

theorem splitNumeral_digits (seen : Bool) {ds cs text rest : List Char}
    (hd : ∀ c ∈ ds, Number.isDigit c) (h : splitNumeral seen cs = .ok (text, rest)) :
    splitNumeral seen (ds ++ cs) = .ok (ds ++ text, rest) := by
  induction ds with
  | nil => exact h
  | cons d ds ih =>
    obtain ⟨hd, hds⟩ := List.forall_mem_cons.1 hd
    rw [List.cons_append, splitNumeral.eq_def]
    dsimp only
    rw [if_pos hd, ih hds]
    rfl

theorem splitNumeral_end {seen : Bool} {rest : List Char} (h : Delimited rest) :
    splitNumeral seen rest = .ok ([], rest) := by
  cases rest with
  | nil => rfl
  | cons c rest =>
    have ne {d : Char} (hd : Visible d) : c ≠ d := fun he => h.head_ne hd (congrArg some he)
    have no_digit := h.endsRun (fun _ => visible_of_isDigit) c rfl
    rw [splitNumeral.eq_def]
    dsimp only
    rw [if_neg (by simp [no_digit]), if_neg (fun hc => ne ⟨by decide, by decide⟩ hc.1), if_neg]
    rintro (he | he)
    · exact ne ⟨by decide, by decide⟩ he
    · exact ne ⟨by decide, by decide⟩ he

theorem Exponent.digits_eq (e : Exponent) : ∃ d ds, e.digits = d :: ds ∧ Number.isDigit d := by
  obtain ⟨d, ds, hd⟩ := List.exists_cons_of_ne_nil e.digits_ne_nil
  exact ⟨d, ds, hd, e.isDigit d (hd ▸ List.mem_cons_self)⟩

theorem splitNumeral_exponent {seen : Bool} {rest : List Char} (e : Exponent)
    (h : Delimited rest) : splitNumeral seen (e.spelling ++ rest) = .ok (e.spelling, rest) := by
  have digits := splitNumeral_digits seen e.isDigit (splitNumeral_end h)
  rw [List.append_nil] at digits
  obtain ⟨d, ds, hd, hdigit⟩ := e.digits_eq
  have mark_digit : ¬ Number.isDigit e.mark := by
    rcases e.mark_eq with he | he <;> rw [he] <;> decide
  have mark_point : e.mark ≠ '.' := by
    rcases e.mark_eq with he | he <;> rw [he] <;> decide
  have starts : startsWithDigit (e.digits ++ rest) = true := by
    rw [hd]
    exact hdigit
  rw [Exponent.spelling, List.cons_append, List.append_assoc, splitNumeral.eq_def]
  dsimp only
  rw [if_neg mark_digit, if_neg (fun hc => mark_point hc.1), if_pos e.mark_eq]
  rcases e.sign_eq with hs | hs | hs
  · have no_sign : ¬ (d = '+' ∨ d = '-') := by
      rintro (rfl | rfl) <;> exact absurd hdigit (by decide)
    rw [hd, List.cons_append] at digits
    rw [hs, hd]
    simp only [List.nil_append, List.cons_append]
    rw [if_neg no_sign, if_pos hdigit, digits]
    rfl
  · rw [hs]
    simp only [List.cons_append, List.nil_append]
    rw [if_pos (.inl trivial), if_pos starts, digits]
    rfl
  · rw [hs]
    simp only [List.cons_append, List.nil_append]
    rw [if_pos (.inr trivial), if_pos starts, digits]
    rfl

theorem splitNumeral_exponentSpelling {seen : Bool} {rest : List Char} (n : Numeral)
    (h : Delimited rest) :
    splitNumeral seen (n.exponentSpelling ++ rest) = .ok (n.exponentSpelling, rest) := by
  unfold Numeral.exponentSpelling
  split
  · exact splitNumeral_end h
  · exact splitNumeral_exponent _ h

/-- What stands behind the digits of a numeral is no further digit and no point. -/
theorem exponentSpelling_head (n : Numeral) {rest : List Char} (h : Delimited rest) :
    EndsRun (fun c => Number.isDigit c || c == '.') (n.exponentSpelling ++ rest) := by
  unfold Numeral.exponentSpelling
  split
  · refine h.endsRun fun c hc => ?_
    rcases Bool.or_eq_true_iff.1 hc with hc | hc
    · exact visible_of_isDigit hc
    · rw [eq_of_beq hc]
      exact ⟨by decide, by decide⟩
  · rename_i e _
    refine .cons ?_
    rcases e.mark_eq with he | he <;> rw [he] <;> decide

theorem splitNumeral_spelling {rest : List Char} (n : Numeral) (h : Delimited rest) :
    splitNumeral false (n.spelling ++ rest) = .ok (n.spelling, rest) := by
  rw [Numeral.spelling, List.append_assoc, List.append_assoc]
  refine splitNumeral_digits false n.isDigit_whole ?_
  unfold Numeral.fractionSpelling
  split
  · exact splitNumeral_exponentSpelling n h
  · rename_i ds hds
    have digits := splitNumeral_digits true (n.isDigit_fraction ds hds)
      (splitNumeral_exponentSpelling n h)
    have no_point : (ds ++ (n.exponentSpelling ++ rest)).head? ≠ some '.' := by
      cases ds with
      | nil =>
        intro hp
        exact absurd (exponentSpelling_head n h '.' hp) (by decide)
      | cons d ds =>
        intro hp
        have digit := n.isDigit_fraction _ hds d List.mem_cons_self
        rw [Option.some.inj hp] at digit
        exact absurd digit (by decide)
    rw [List.cons_append, splitNumeral.eq_def]
    dsimp only
    rw [if_neg (by decide), if_pos ⟨rfl, rfl⟩, if_neg no_point, digits]
    rfl

theorem unsigned_eq_self {cs : List Char} (hp : cs.head? ≠ some '+')
    (hm : cs.head? ≠ some '-') : Number.unsigned cs = (false, cs) := by
  unfold Number.unsigned
  split
  · exact absurd rfl hp
  · exact absurd rfl hm
  · rfl

theorem readExponent?_spelling (n : Numeral) :
    Number.readExponent? n.exponentSpelling
      = some ((n.exponent.map Exponent.value).getD 0) := by
  unfold Numeral.exponentSpelling
  split
  · rename_i hn
    rw [hn]
    rfl
  · rename_i e he
    obtain ⟨d, ds, hd, hdigit⟩ := e.digits_eq
    have all_digits : e.digits.all Number.isDigit = true := List.all_eq_true.2 e.isDigit
    have mark : (e.mark = 'e' || e.mark = 'E') = true := by
      rcases e.mark_eq with hm | hm <;> rw [hm] <;> decide
    have no_sign : Number.unsigned e.digits = (false, e.digits) := by
      refine unsigned_eq_self ?_ ?_ <;>
      · rw [hd]
        rintro ⟨⟩
        exact absurd hdigit (by decide)
    rw [he, Exponent.spelling, Number.readExponent?, if_pos mark]
    rcases e.sign_eq with hs | hs | hs
    · simp [hs, no_sign, all_digits, e.digits_ne_nil, Exponent.value]
    · simp [hs, Number.unsigned, all_digits, e.digits_ne_nil, Exponent.value]
    · simp [hs, Number.unsigned, all_digits, e.digits_ne_nil, Exponent.value]

theorem Numeral.spelling_eq (n : Numeral) : ∃ c cs, n.spelling = c :: cs ∧
    (Number.isDigit c ∨ c = '.' ∧ startsWithDigit cs) := by
  cases hw : n.whole with
  | cons c cs =>
    refine ⟨c, _, by rw [spelling, hw]; rfl, .inl (n.isDigit_whole c ?_)⟩
    exact hw ▸ List.mem_cons_self
  | nil =>
    obtain ⟨ds, hf⟩ : ∃ ds, n.fraction = some ds := by
      cases hf : n.fraction with
      | none => exact absurd (n.ne_nil.resolve_left (· hw)) (by rw [hf]; exact (· rfl))
      | some ds => exact ⟨ds, rfl⟩
    have digits := n.ne_nil.resolve_left (· hw)
    rw [hf] at digits
    obtain ⟨d, ds, rfl⟩ := List.exists_cons_of_ne_nil digits
    refine ⟨'.', d :: ds ++ n.exponentSpelling, ?_, .inr ⟨rfl, ?_⟩⟩
    · rw [spelling, hw, fractionSpelling, hf]
      rfl
    · exact n.isDigit_fraction _ hf d List.mem_cons_self

theorem Numeral.unsigned_spelling (n : Numeral) :
    Number.unsigned n.spelling = (false, n.spelling) := by
  obtain ⟨c, cs, hc, hstart⟩ := n.spelling_eq
  refine unsigned_eq_self ?_ ?_ <;>
  · rw [hc]
    rintro ⟨⟩
    exact absurd hstart (by simp +decide)

theorem read?_spelling (n : Numeral) : Number.read? n.spelling = some n.value := by
  have tail := exponentSpelling_head n (show Delimited [] from fun c hc => nomatch hc)
  rw [List.append_nil] at tail
  have ends : EndsRun Number.isDigit n.exponentSpelling := fun c hc =>
    (Bool.or_eq_false_iff.1 (tail c hc)).1
  have behind_whole : EndsRun Number.isDigit (n.fractionSpelling ++ n.exponentSpelling) := by
    unfold Numeral.fractionSpelling
    split
    · exact ends
    · exact .cons (by decide)
  have fraction : Number.readFraction (n.fractionSpelling ++ n.exponentSpelling)
      = (n.fraction.getD [], n.exponentSpelling) := by
    unfold Numeral.fractionSpelling
    split
    · rename_i hf
      rw [hf, List.nil_append]
      unfold Number.readFraction
      split
      · exact absurd (tail '.' (by rw [‹n.exponentSpelling = _›]; rfl)) (by decide)
      · rfl
    · rename_i ds hf
      rw [hf, List.cons_append, Number.readFraction, takeWhile_run (n.isDigit_fraction ds hf) ends,
        dropWhile_run (n.isDigit_fraction ds hf) ends]
      rfl
  have digits : ¬ ((n.whole.isEmpty && (n.fraction.getD []).isEmpty) = true) := by
    rw [Bool.and_eq_true, List.isEmpty_iff, List.isEmpty_iff]
    rintro ⟨hw, hf⟩
    rcases n.ne_nil with h | h
    · exact h hw
    · exact h hf
  unfold Number.read?
  rw [n.unsigned_spelling]
  dsimp only
  rw [Numeral.spelling, takeWhile_run n.isDigit_whole behind_whole,
    dropWhile_run n.isDigit_whole behind_whole, fraction]
  dsimp only
  rw [if_neg digits, readExponent?_spelling]
  rfl

theorem readNumber_spelling (n : Numeral) {rest : List Char} (h : Delimited rest) (p : Position) :
    readNumber ⟨n.spelling ++ rest, p⟩ = .ok (.number n.value, ⟨rest, p.advanceAll n.spelling⟩) := by
  have no_name : (rest.head?.map isNameStart).getD false = false := by
    cases rest with
    | nil => rfl
    | cons c rest => exact h.endsRun (fun _ => visible_of_isNameStart) c rfl
  unfold readNumber
  rw [splitNumeral_spelling n h]
  dsimp only
  rw [no_name, if_neg Bool.false_ne_true, read?_spelling]

/-! ## Strings -/

section Strings
variable {quote : Char} {opened p : Position} {cs : List Char}

theorem stringBody_plain {c : Char} (h : c ≠ '\\') :
    stringBody quote opened p (c :: cs) =
      if c = '\n' then .error ⟨.unterminatedString, opened⟩
      else if c = quote then .ok ([], ⟨cs, p.advance c⟩)
      else withCharacter c (stringBody quote opened (p.advance c) cs) := by
  rw [stringBody.eq_def]
  split <;> simp_all

theorem stringBody_escape {c : Char} (h : c ≠ 'u') :
    stringBody quote opened p ('\\' :: c :: cs) =
      withCharacter (unescape c)
        (stringBody quote opened ((p.advance '\\').advance c) cs) := by
  rw [stringBody.eq_def]
  split <;> grind

theorem stringBody_code {w x y z c : Char} (h : hexNumber? [w, x, y, z] = some c.toNat) :
    stringBody quote opened p ('\\' :: 'u' :: w :: x :: y :: z :: cs) =
      withCharacter c
        (stringBody quote opened (p.advanceAll ['\\', 'u', w, x, y, z]) cs) := by
  have named : (hexNumber? [w, x, y, z]).bind charOfCode? = some c := by
    rw [h, Option.bind_some, charOfCode?, if_pos (show c.toNat.isValidChar from c.valid),
      Char.ofNat_toNat]
  rw [stringBody, named]

theorem Escape.unescape {letter c : Char} (h : Escape letter c) :
    letter ≠ 'u' ∧ unescape letter = c := by
  cases h with
  | newline | tab | carriageReturn | zero => exact ⟨by decide, rfl⟩
  | self h =>
    simp only [List.mem_cons, List.not_mem_nil, or_false, not_or] at h
    simp [Rule.unescape, h]

theorem stringBody_char (x : StringChar quote) :
    stringBody quote opened p (x.spelling ++ cs) =
      withCharacter x.char (stringBody quote opened (p.advanceAll x.spelling) cs) := by
  cases x with
  | raw c h =>
    simp only [List.mem_cons, List.not_mem_nil, or_false, not_or] at h
    exact (stringBody_plain h.2.1).trans (by rw [if_neg h.2.2, if_neg h.1]; rfl)
  | escaped letter c h =>
    obtain ⟨hu, rfl⟩ := h.unescape
    exact stringBody_escape hu
  | code w x y z c h => exact stringBody_code h

theorem stringBody_spelling (chars : List (StringChar quote))
    (hq : quote = '"' ∨ quote = '\x27') (rest : List Char) :
    stringBody quote opened p (chars.flatMap StringChar.spelling ++ quote :: rest) =
      .ok (chars.map StringChar.char,
        ⟨rest, p.advanceAll (chars.flatMap StringChar.spelling ++ [quote])⟩) := by
  induction chars generalizing p with
  | nil =>
    have not_escape : quote ≠ '\\' := by rcases hq with rfl | rfl <;> decide
    have not_break : quote ≠ '\n' := by rcases hq with rfl | rfl <;> decide
    exact (stringBody_plain not_escape).trans (by rw [if_neg not_break, if_pos rfl]; rfl)
  | cons x chars ih =>
    rw [List.flatMap_cons, List.append_assoc, stringBody_char, ih, List.append_assoc,
      Position.advanceAll_append p]
    rfl

end Strings

/-! ## Words and signs -/

theorem isPrefixOf_append {w cs rest : List Char} (hw : ∀ c ∈ w, Visible c)
    (hr : Delimited rest) : w.isPrefixOf (cs ++ rest) = w.isPrefixOf cs := by
  induction w generalizing cs with
  | nil => rfl
  | cons c w ih =>
    obtain ⟨hc, hw⟩ := List.forall_mem_cons.1 hw
    cases cs with
    | cons d cs =>
      change (c == d && w.isPrefixOf (cs ++ rest)) = (c == d && w.isPrefixOf cs)
      rw [ih hw]
    | nil =>
      cases rest with
      | nil => rfl
      | cons d rest =>
        have differ : (c == d) = false :=
          beq_eq_false_iff_ne.2 fun he => hr.head_ne hc (congrArg some he.symm)
        change (c == d && w.isPrefixOf rest) = false
        rw [differ, Bool.false_and]

theorem Sign.visible (s : Sign) : ∀ c ∈ s.spelling, Visible c := by
  have bounds : s.spelling.all (fun c => decide (32 < c.toNat ∧ c.toNat < 0x85)) = true := by
    cases s <;> rfl
  intro c hc
  have inside : 32 < c.toNat ∧ c.toNat < 0x85 :=
    of_decide_eq_true (List.all_eq_true.1 bounds c hc)
  exact ⟨inside.1, inside.2⟩

theorem Sign.leading?_spelling (s : Sign) {rest : List Char} (h : Delimited rest) :
    leading? (s.spelling ++ rest) = some s := by
  have same : (fun t : Sign => t.spelling.isPrefixOf (s.spelling ++ rest))
      = fun t => t.spelling.isPrefixOf s.spelling := by
    funext t
    exact isPrefixOf_append t.visible h
  unfold leading?
  rw [same]
  cases s <;> rfl

theorem readSign_spelling (s : Sign) {rest : List Char} (h : Delimited rest) (p : Position)
    (c : Char) : readSign ⟨s.spelling ++ rest, p⟩ c =
      .ok (.sign s, ⟨rest, p.advanceAll s.spelling⟩) := by
  have dots : ∀ c ∈ ['.', '.', '.'], Visible c := by
    simp only [List.mem_cons, List.not_mem_nil, or_false, or_self, forall_eq]
    exact ⟨by decide, by decide⟩
  have no_dots : ¬ (['.', '.'].isPrefixOf (s.spelling ++ rest) ∧
      ¬ ['.', '.', '.'].isPrefixOf (s.spelling ++ rest)) := by
    rw [isPrefixOf_append (fun c hc => dots c (List.mem_cons_of_mem _ hc)) h,
      isPrefixOf_append dots h]
    cases s <;> decide
  unfold readSign
  rw [if_neg no_dots]
  dsimp only
  rw [s.leading?_spelling h]
  dsimp only [Source.advanceBy]
  rw [List.drop_left, List.take_left]

theorem readToken_sign (s : Sign) {rest : List Char} (h : Delimited rest) (p : Position) :
    readToken ⟨s.spelling ++ rest, p⟩ = .ok (.sign s, ⟨rest, p.advanceAll s.spelling⟩) := by
  obtain ⟨c, cs, hc, no_quote, no_number, no_name⟩ : ∃ c cs, s.spelling = c :: cs ∧
      ¬ (c = '"' ∨ c = '\x27') ∧
      ¬ (Number.isDigit c ∨ c = '.' ∧ startsWithDigit (cs ++ rest)) ∧ ¬ isNameStart c := by
    cases s with
    | dot => exact ⟨_, _, rfl, by decide, by simp +decide [h.startsWithDigit], by decide⟩
    | _ => exact ⟨_, _, rfl, by decide, by simp +decide [startsWithDigit], by decide⟩
  have sign := readSign_spelling s h p c
  rw [hc, List.cons_append] at sign ⊢
  unfold readToken
  dsimp only
  rw [if_neg no_quote, if_neg no_number, if_neg no_name, sign]

theorem Keyword.ofWord?_eq_some {k : Keyword} {word : String} :
    ofWord? word = some k ↔ word ∈ k.words := by
  constructor
  · intro h
    unfold ofWord? at h
    repeat' split at h
    all_goals cases h
    all_goals simp_all [words, spelling]
  · intro h
    cases k <;> simp only [words, spelling, List.mem_cons, List.not_mem_nil, or_false] at h
    case «let» => rcases h with rfl | rfl | rfl <;> rfl
    all_goals
      subst h
      rfl

theorem Keyword.isNameStart_words {k : Keyword} {word : String} (h : word ∈ k.words) :
    ∃ c cs, word.toList = c :: cs ∧ isNameStart c ∧ ∀ d ∈ cs, isNameChar d := by
  cases k <;> simp only [words, spelling, List.mem_cons, List.not_mem_nil, or_false] at h
  case «let» =>
    rcases h with rfl | rfl | rfl <;> exact ⟨_, _, rfl, by decide, List.all_eq_true.1 rfl⟩
  all_goals
    subst h
    exact ⟨_, _, rfl, by decide, List.all_eq_true.1 rfl⟩

theorem readToken_nameChars {c : Char} {cs rest : List Char} (hc : isNameStart c)
    (hcs : ∀ d ∈ cs, isNameChar d) (h : EndsRun isNameChar rest) (p : Position) :
    readToken ⟨c :: cs ++ rest, p⟩ =
      .ok ((Keyword.ofWord? (.ofList (c :: cs))).elim (.name (.ofList (c :: cs))) .keyword,
        ⟨rest, p.advanceAll (c :: cs)⟩) := by
  have bounds := isNameStart_bounds hc
  have no_quote : ¬ (c = '"' ∨ c = '\x27') := by
    rintro (rfl | rfl) <;> exact absurd bounds (by decide)
  have no_point : c ≠ '.' := by
    rintro rfl
    exact absurd bounds (by decide)
  have no_number : ¬ (Number.isDigit c ∨ c = '.' ∧ startsWithDigit (cs ++ rest)) := by
    rintro (hd | hd)
    · rw [isDigit_of_isNameStart hc] at hd
      cases hd
    · exact no_point hd.1
  have name_chars : ∀ d ∈ c :: cs, isNameChar d :=
    List.forall_mem_cons.2 ⟨isNameChar_iff.2 (.inl hc), hcs⟩
  unfold readToken
  rw [List.cons_append]
  dsimp only
  rw [if_neg no_quote, if_neg no_number, if_pos hc, ← List.cons_append]
  unfold readWord
  dsimp only
  rw [takeWhile_run name_chars h, dropWhile_run name_chars h]
  cases Keyword.ofWord? (.ofList (c :: cs)) <;> rfl

/-! ## Lexemes -/

theorem readToken_lexeme (l : Lexeme) {rest : List Char} (h : Delimited rest) (p : Position) :
    readToken ⟨l.spelling ++ rest, p⟩ = .ok (l.token, ⟨rest, p.advanceAll l.spelling⟩) := by
  have ends : EndsRun isNameChar rest := h.endsRun fun _ => visible_of_isNameChar
  cases l with
  | name c cs hc hcs hk =>
    have no_keyword : Keyword.ofWord? (.ofList (c :: cs)) = none := by
      refine Option.eq_none_iff_forall_ne_some.2 fun k hw => ?_
      exact hk k (Keyword.ofWord?_eq_some.1 hw)
    refine (readToken_nameChars hc hcs ends p).trans ?_
    rw [no_keyword]
    rfl
  | keyword k word hk =>
    obtain ⟨c, cs, hw, hc, hcs⟩ := Keyword.isNameStart_words hk
    have keyword : Keyword.ofWord? (.ofList (c :: cs)) = some k := by
      rw [← hw, String.ofList_toList]
      exact Keyword.ofWord?_eq_some.2 hk
    change readToken ⟨word.toList ++ rest, p⟩ = .ok (.keyword k, ⟨rest, p.advanceAll word.toList⟩)
    rw [hw, readToken_nameChars hc hcs ends p, keyword]
    rfl
  | sign s => exact readToken_sign s h p
  | number n =>
    obtain ⟨c, cs, hc, hstart⟩ := n.spelling_eq
    have no_quote : ¬ (c = '"' ∨ c = '\x27') := by
      rintro (rfl | rfl) <;> exact absurd hstart (by simp +decide)
    have starts : Number.isDigit c ∨ c = '.' ∧ startsWithDigit (cs ++ rest) := by
      refine hstart.imp_right fun hp => ⟨hp.1, ?_⟩
      cases cs with
      | nil => exact absurd hp.2 Bool.false_ne_true
      | cons d cs => exact hp.2
    have number := readNumber_spelling n h p
    change readToken ⟨n.spelling ++ rest, p⟩ = .ok (.number n.value, ⟨rest, p.advanceAll n.spelling⟩)
    rw [← number, hc, List.cons_append]
    unfold readToken
    dsimp only
    rw [if_neg no_quote, if_pos starts]
  | string quote chars hq =>
    have body : stringBody quote p (p.advance quote)
        (chars.flatMap StringChar.spelling ++ quote :: rest) = _ :=
      stringBody_spelling chars hq rest
    rw [Lexeme.spelling, List.cons_append, List.append_assoc, List.singleton_append]
    unfold readToken
    dsimp only
    rw [if_pos hq, body]
    rfl

/-- No lexeme starts with white space, and only the division sign with a slash. -/
theorem Lexeme.spelling_head (l : Lexeme) : ∃ c cs, l.spelling = c :: cs ∧ Visible c ∧
    (c = '/' → cs = []) := by
  have of_name {c : Char} (cs : List Char) (hc : isNameStart c) :
      Visible c ∧ (c = '/' → cs = []) := by
    refine ⟨visible_of_isNameStart hc, ?_⟩
    rintro rfl
    exact absurd hc (by decide)
  cases l with
  | name c cs hc hcs hk => exact ⟨c, cs, rfl, of_name cs hc⟩
  | keyword k word hk =>
    obtain ⟨c, cs, hw, hc, -⟩ := Keyword.isNameStart_words hk
    exact ⟨c, cs, hw, of_name cs hc⟩
  | sign s =>
    obtain ⟨c, cs, hc, hslash⟩ : ∃ c cs, s.spelling = c :: cs ∧ (c = '/' → cs = []) := by
      cases s <;> exact ⟨_, _, rfl, by decide⟩
    exact ⟨c, cs, hc, s.visible c (hc ▸ List.mem_cons_self), hslash⟩
  | number n =>
    obtain ⟨c, cs, hc, hstart⟩ := n.spelling_eq
    refine ⟨c, cs, hc, ?_, ?_⟩
    · rcases hstart with hd | ⟨rfl, -⟩
      · exact visible_of_isDigit hd
      · exact ⟨by decide, by decide⟩
    · rintro rfl
      exact absurd hstart (by simp +decide)
  | string quote chars hq =>
    refine ⟨quote, _, rfl, ?_, ?_⟩
    · rcases hq with rfl | rfl <;> exact ⟨by decide, by decide⟩
    · rcases hq with rfl | rfl <;> exact fun h => absurd h (by decide)

theorem Lexeme.token_ne_stop (l : Lexeme) : l.token ≠ .stop := by
  cases l <;> exact fun h => nomatch h

end ScoreSheet.Rule
