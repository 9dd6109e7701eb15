import ScoreSheet.Rule.Lexer
set_option autoImplicit false

namespace ScoreSheet.Rule

inductive Word where
  | name
  | sign (s : Sign)

namespace Word

def token : Word → Token
  | name => .name "a"
  | sign s => .sign s

def spelling : Word → List Char
  | name => ['a']
  | sign s => s.spelling

end Word

def spell (words : List Word) : List Char := words.flatMap fun w => w.spelling ++ [' ']

theorem spell_cons (w : Word) (words : List Word) :
    spell (w :: words) = w.spelling ++ ' ' :: spell words := by
  simp only [spell, List.flatMap_cons, List.append_assoc, List.singleton_append]

theorem length_le_spell (words : List Word) : words.length ≤ (spell words).length := by
  induction words with
  | nil => exact Nat.zero_le _
  | cons w words ih =>
    rw [spell_cons, List.length_append, List.length_cons, List.length_cons]
    omega

theorem skipGap_word (w : Word) (p : Position) (cs : List Char) :
    skipGap .blank p (w.spelling ++ ' ' :: cs) = .ok ⟨w.spelling ++ ' ' :: cs, p⟩ := by
  cases w with
  | name => rfl
  | sign s => cases s <;> rfl

theorem readToken_word (w : Word) (p : Position) (cs : List Char) :
    readToken ⟨w.spelling ++ ' ' :: cs, p⟩
      = .ok (w.token, ⟨' ' :: cs, p.advanceAll w.spelling⟩) := by
  cases w with
  | name => rfl
  | sign s => cases s <;> rfl

theorem readTokens_blank (fuel : Nat) (p : Position) (cs : List Char) :
    readTokens (fuel + 1) ⟨' ' :: cs, p⟩ = readTokens (fuel + 1) ⟨cs, p.advance ' '⟩ := by
  rfl

theorem readTokens_spell (words : List Word) (fuel : Nat) (p : Position) :
    ∃ ts, readTokens (fuel + words.length + 1) ⟨spell words, p⟩ = .ok ts ∧
      ts.map Located.token = words.map Word.token ++ [.stop] := by
  induction words generalizing p with
  | nil => exact ⟨_, rfl, rfl⟩
  | cons w words ih =>
    let behind := p.advanceAll w.spelling
    obtain ⟨ts, hr, ht⟩ := ih (behind.advance ' ')
    have not_stop : w.token ≠ .stop := by cases w <;> exact fun h => nomatch h
    refine ⟨⟨w.token, p⟩ :: ts, ?_, by rw [List.map_cons, ht]; rfl⟩
    rw [spell_cons, List.length_cons, ← Nat.add_assoc, readTokens, skipGap_word]
    dsimp only
    rw [readToken_word]
    dsimp only
    rw [if_neg not_stop, readTokens_blank, hr]
    rfl

theorem tokenize_spell (words : List Word) : ∃ ts, tokenize (.ofList (spell words)) = .ok ts ∧
    ts.map Located.token = words.map Word.token ++ [.stop] := by
  obtain ⟨fuel, hf⟩ := Nat.exists_eq_add_of_le' (length_le_spell words)
  unfold tokenize Source.start
  rw [String.toList_ofList, hf]
  exact readTokens_spell words fuel .start

end ScoreSheet.Rule
