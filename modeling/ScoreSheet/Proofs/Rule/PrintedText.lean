import ScoreSheet.Proofs.Rule.Callable
import ScoreSheet.Proofs.Rule.NumberText
import ScoreSheet.Proofs.Rule.Printing
set_option autoImplicit false

namespace ScoreSheet.Rule

def Token.Printable : Token → Prop
  | number x => IsNumeral x
  | name n => IsName n
  | string _ | keyword _ | sign _ => True
  | stop => False

theorem exists_numeral_of_parts {x : Float} {b : Number.Binary}
    (h : Number.parts x = .finite false b) : ∃ numeral : Numeral,
      numeral.spelling = (Number.display x).toList ∧ numeral.value = x := by
  rcases Nat.eq_zero_or_pos b.mantissa with none | pos
  · obtain ⟨numeral, spelled, value⟩ := exists_digits ['0']
      (List.forall_mem_singleton.2 rfl) (List.cons_ne_nil _ _)
    rcases Number.eq_zero_of_parts h none with rfl | rfl
    · exact ⟨numeral, spelled.trans (by decide), value⟩
    · rw [Number.parts_negative_zero] at h
      cases h
  · obtain ⟨numeral, shown, value⟩ := exists_shown h pos
    refine ⟨numeral, ?_, value⟩
    rw [shown, Number.signed, String.toList_ofList]
    rfl

theorem exists_numeral {x : Float} (h : IsNumeral x) : ∃ numeral : Numeral,
    numeral.spelling = (Number.display x).toList ∧ numeral.value = x :=
  let ⟨_, finite⟩ := h.1
  exists_numeral_of_parts finite

theorem exists_stringChar (c : Char) :
    ∃ x : StringChar '"', x.spelling = quotedChar c ∧ x.char = c := by
  unfold quotedChar
  split
  · rename_i special
    refine ⟨.escaped c c (.self ?_), rfl, rfl⟩
    rcases special with rfl | rfl <;> decide
  · rename_i usual
    split
    · rename_i newline
      subst newline
      exact ⟨.escaped 'n' '\n' .newline, rfl, rfl⟩
    · rename_i other
      obtain ⟨quote, backslash⟩ := not_or.1 usual
      exact ⟨.raw c (by simp [quote, backslash, other]), rfl, rfl⟩

theorem exists_stringChars (cs : List Char) : ∃ xs : List (StringChar '"'),
    xs.flatMap StringChar.spelling = cs.flatMap quotedChar ∧ xs.map StringChar.char = cs := by
  induction cs with
  | nil => exact ⟨[], rfl, rfl⟩
  | cons c cs ih =>
    obtain ⟨x, hx, rfl⟩ := exists_stringChar c
    obtain ⟨xs, hxs, rfl⟩ := ih
    exact ⟨x :: xs, by rw [List.flatMap_cons, List.flatMap_cons, hx, hxs], rfl⟩

theorem exists_lexeme {t : Token} (h : t.Printable) :
    ∃ l : Lexeme, l.token = t ∧ l.spelling = t.text := by
  cases t with
  | number x =>
    obtain ⟨numeral, spelled, value⟩ := exists_numeral h
    exact ⟨.number numeral, congrArg _ value, spelled⟩
  | string s =>
    obtain ⟨xs, spelled, chars⟩ := exists_stringChars s.toList
    refine ⟨.string '"' xs (.inl rfl), ?_, ?_⟩
    · rw [Lexeme.token, chars, String.ofList_toList]
    · rw [Lexeme.spelling, spelled]
      rfl
  | name n =>
    obtain ⟨identifier, no_keyword⟩ := h
    obtain ⟨c, cs, hn, hc, hcs⟩ := isIdentifier_iff.1 identifier
    have word : String.ofList (c :: cs) = n := by rw [← hn, String.ofList_toList]
    refine ⟨.name c cs hc hcs fun k hk => ?_, congrArg _ word, hn.symm⟩
    rw [word] at hk
    rw [Keyword.ofWord?_eq_some.2 hk] at no_keyword
    cases no_keyword
  | keyword k => exact ⟨.keyword k k.spelling (by cases k <;> decide), rfl, rfl⟩
  | sign s => exact ⟨.sign s, rfl, rfl⟩
  | stop => exact h.elim

def blankSeparator : Separator := ⟨' ', [], rfl⟩

theorem exists_further {w : List Token} (h : ∀ t ∈ w, t.Printable) :
    ∃ further : List (Separator × Lexeme),
      Layout.furtherText further = (w.flatMap fun t => ' ' :: t.text) ∧
        ∀ before, (Layout.furtherTokens before further).map Located.token = w ++ [.stop] := by
  induction w with
  | nil => exact ⟨[], rfl, fun _ => rfl⟩
  | cons t w ih =>
    obtain ⟨ht, hw⟩ := List.forall_mem_cons.1 h
    obtain ⟨l, token, spelled⟩ := exists_lexeme ht
    obtain ⟨further, text, tokens⟩ := ih hw
    refine ⟨(blankSeparator, l) :: further, ?_, fun before => ?_⟩
    · rw [List.flatMap_cons, ← text, ← spelled]
      rfl
    · rw [Layout.furtherTokens, List.map_cons, tokens, token]
      rfl

/-- Tokens that are printed with blanks between them are read back. -/
theorem tokenize_spaced {w : List Token} (h : ∀ t ∈ w, t.Printable) :
    ∃ ts, tokenize (.ofList (spaced w)) = .ok ts ∧ ts.map Located.token = w ++ [.stop] := by
  cases w with
  | nil => exact ⟨_, tokenize_layout .empty, rfl⟩
  | cons t w =>
    obtain ⟨ht, hw⟩ := List.forall_mem_cons.1 h
    obtain ⟨l, token, spelled⟩ := exists_lexeme ht
    obtain ⟨further, text, tokens⟩ := exists_further hw
    have read := tokenize_layout (.lexemes l further)
    rw [Layout.text, spelled, text] at read
    refine ⟨_, read, ?_⟩
    rw [Layout.tokens, List.map_cons, tokens, token]
    rfl

end ScoreSheet.Rule
