import ScoreSheet.Json.Printer
import ScoreSheet.Json.Reader
set_option autoImplicit false

namespace ScoreSheet.Json

/-- In front of the rest, the text is read as `x` at every place. -/
def Reads {α : Type} (read : Read α) (text : List Char) (x : α) (rest : List Char) : Prop :=
  ∀ p, ∃ q, read ⟨text ++ rest, p⟩ = .ok (x, ⟨rest, q⟩)

theorem escape_letter {x y : Char} (hx : x ≠ 'u') (h : unescape? x = some y)
    (rest : List Char) : Reads escape [x] y rest := by
  intro p
  refine ⟨p.advance x, ?_⟩
  unfold escape
  dsimp only [List.cons_append, List.nil_append]
  rw [if_neg hx, h]
  rfl

theorem length_le_utf8ByteSize (cs : List Char) : cs.length ≤ (String.ofList cs).utf8ByteSize := by
  induction cs with
  | nil => exact Nat.zero_le _
  | cons c cs ih =>
    have first : 0 < (String.singleton c).utf8ByteSize := by
      rw [String.utf8ByteSize_singleton]
      exact Char.utf8Size_pos c
    rw [String.ofList_cons, String.utf8ByteSize_append, List.length_cons]
    omega

theorem hexEscape_digits {cs : List Char} {n : Nat} (hl : cs.length = 4)
    (h : Text.hexNumber? cs = some n) (rest : List Char) : Reads hexEscape cs n rest := by
  intro p
  refine ⟨p.advanceAll cs, ?_⟩
  have enough : ¬ (String.ofList (cs ++ rest)).utf8ByteSize < 4 := by
    have bytes := length_le_utf8ByteSize (cs ++ rest)
    rw [List.length_append] at bytes
    omega
  have first : (cs ++ rest).take 4 = cs := by rw [← hl, List.take_left]
  have behind : (cs ++ rest).drop 4 = rest := by rw [← hl, List.drop_left]
  unfold hexEscape Cursor.drop
  dsimp only
  rw [if_neg enough, first, behind, h]

theorem hexNumber?_control : ∀ n < 0x20,
    Text.hexNumber? ['0', '0', hexDigit (n / 16), hexDigit (n % 16)] = some n := by
  decide

theorem escape_control {c : Char} (h : c.toNat < 0x20) (rest : List Char) :
    Reads escape ['u', '0', '0', hexDigit (c.toNat / 16), hexDigit (c.toNat % 16)] c rest := by
  intro p
  obtain ⟨q, hq⟩ := hexEscape_digits rfl (hexNumber?_control c.toNat h) rest (p.advanceAll ['u'])
  refine ⟨q, ?_⟩
  have not_low : isLowSurrogate c.toNat = false := by
    unfold isLowSurrogate
    simp only [Bool.and_eq_false_iff, decide_eq_false_iff_not]
    omega
  have not_high : isHighSurrogate c.toNat = false := by
    unfold isHighSurrogate
    simp only [Bool.and_eq_false_iff, decide_eq_false_iff_not]
    omega
  have read : unicodeEscape ⟨['0', '0', hexDigit (c.toNat / 16), hexDigit (c.toNat % 16)] ++ rest,
      p.advanceAll ['u']⟩ = .ok (c, ⟨rest, q⟩) := by
    unfold unicodeEscape
    rw [hq]
    dsimp only [bind, Except.bind]
    rw [not_low, not_high, Char.ofNat_toNat]
    rfl
  exact read

theorem stringBody_escape {fuel : Nat} {text cs rest : List Char} {c : Char}
    (he : ∀ rest, Reads escape text c rest)
    (hb : Reads (stringBody fuel) (cs.flatMap escapeChar ++ ['"']) cs rest) :
    Reads (stringBody (fuel + 1)) ('\\' :: text ++ (cs.flatMap escapeChar ++ ['"']))
      (c :: cs) rest := by
  intro p
  obtain ⟨q, hq⟩ := he (cs.flatMap escapeChar ++ ['"'] ++ rest) (p.advanceAll ['\\'])
  obtain ⟨q', hq'⟩ := hb q
  refine ⟨q', ?_⟩
  rw [stringBody]
  dsimp only [List.cons_append]
  rw [if_neg (by decide), if_pos rfl, List.append_assoc]
  change (escape ⟨text ++ (cs.flatMap escapeChar ++ ['"'] ++ rest), p.advanceAll ['\\']⟩ >>= _) = _
  rw [hq]
  dsimp only [bind, Except.bind]
  rw [hq']

theorem stringBody_plain {fuel : Nat} {text cs rest : List Char} {c : Char} (hq : c ≠ '"')
    (hs : c ≠ '\\') (hc : ¬ c.toNat < 0x20) (hb : Reads (stringBody fuel) text cs rest) :
    Reads (stringBody (fuel + 1)) (c :: text) (c :: cs) rest := by
  intro p
  obtain ⟨q, h⟩ := hb (p.advanceAll [c])
  refine ⟨q, ?_⟩
  rw [stringBody]
  dsimp only [List.cons_append]
  rw [if_neg hq, if_neg hs, if_neg hc]
  change (stringBody fuel ⟨text ++ rest, p.advanceAll [c]⟩ >>= _) = _
  rw [h]
  rfl

/-- A character is written as a letter, as a code, or as it is. -/
theorem escapeChar_cases (c : Char) :
    (∃ x, x ≠ 'u' ∧ unescape? x = some c ∧ escapeChar c = ['\\', x]) ∨
    (c.toNat < 0x20 ∧ escapeChar c =
      ['\\', 'u', '0', '0', hexDigit (c.toNat / 16), hexDigit (c.toNat % 16)]) ∨
    (c ≠ '"' ∧ c ≠ '\\' ∧ ¬ c.toNat < 0x20 ∧ escapeChar c = [c]) := by
  unfold escapeChar
  repeat' split
  case isFalse.isFalse.isFalse.isFalse.isFalse.isFalse.isFalse.isTrue h => exact .inr (.inl ⟨h, rfl⟩)
  case isFalse.isFalse.isFalse.isFalse.isFalse.isFalse.isFalse.isFalse =>
    exact .inr (.inr ⟨‹_›, ‹_›, ‹_›, rfl⟩)
  all_goals
    subst c
    exact .inl ⟨_, by decide, rfl, rfl⟩

theorem stringBody_cons {fuel : Nat} {cs rest : List Char} (c : Char)
    (hb : Reads (stringBody fuel) (cs.flatMap escapeChar ++ ['"']) cs rest) :
    Reads (stringBody (fuel + 1)) (escapeChar c ++ (cs.flatMap escapeChar ++ ['"']))
      (c :: cs) rest := by
  rcases escapeChar_cases c with ⟨x, hx, hu, hc⟩ | ⟨h, hc⟩ | ⟨hq, hs, h, hc⟩
  · rw [hc]
    exact stringBody_escape (escape_letter hx hu) hb
  · rw [hc]
    exact stringBody_escape (escape_control h) hb
  · rw [hc]
    exact stringBody_plain hq hs h hb

theorem stringBody_escaped {fuel : Nat} (cs : List Char) (hf : cs.length < fuel)
    (rest : List Char) :
    Reads (stringBody fuel) (cs.flatMap escapeChar ++ ['"']) cs rest := by
  induction cs generalizing fuel with
  | nil =>
    obtain ⟨fuel, rfl⟩ := Nat.exists_eq_add_of_le' hf
    exact fun p => ⟨p.advanceAll ['"'], rfl⟩
  | cons c cs ih =>
    obtain ⟨fuel, rfl⟩ := Nat.exists_eq_add_of_le' (Nat.lt_of_le_of_lt (Nat.zero_le _) hf)
    rw [List.flatMap_cons, List.append_assoc]
    exact stringBody_cons c (ih (Nat.lt_of_succ_lt_succ hf))

theorem length_le_flatMap {α β : Type} {f : α → List β} (h : ∀ x, f x ≠ []) (xs : List α) :
    xs.length ≤ (xs.flatMap f).length := by
  induction xs with
  | nil => exact Nat.zero_le _
  | cons x xs ih =>
    have first := List.length_pos_iff.2 (h x)
    rw [List.flatMap_cons, List.length_append, List.length_cons]
    omega

theorem escapeChar_ne_nil (c : Char) : escapeChar c ≠ [] := by
  rcases escapeChar_cases c with ⟨x, -, -, hc⟩ | ⟨-, hc⟩ | ⟨-, -, -, hc⟩
  all_goals
    rw [hc]
    exact List.cons_ne_nil _ _

def quoteTail (s : String) : List Char := s.toList.flatMap escapeChar ++ ['"']

theorem toList_quote (s : String) : (quote s).toList = '"' :: quoteTail s := by
  unfold quote quoteTail
  rw [String.toList_ofList, List.cons_append]

theorem stringText_quoteTail (s : String) (rest : List Char) :
    Reads stringText (quoteTail s) s rest := by
  intro p
  have enough : s.toList.length < (quoteTail s ++ rest).length + 1 := by
    have escaped := length_le_flatMap escapeChar_ne_nil s.toList
    rw [quoteTail, List.length_append, List.length_append]
    omega
  obtain ⟨q, hq⟩ := stringBody_escaped s.toList enough rest p
  refine ⟨q, ?_⟩
  unfold stringText
  change (stringBody ((quoteTail s ++ rest).length + 1) ⟨quoteTail s ++ rest, p⟩ >>= _) = _
  rw [show quoteTail s = s.toList.flatMap escapeChar ++ ['"'] from rfl] at hq ⊢
  rw [hq]
  dsimp only [bind, Except.bind]
  rw [String.ofList_toList]

end ScoreSheet.Json
