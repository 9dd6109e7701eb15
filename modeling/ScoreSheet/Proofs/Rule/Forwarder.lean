import ScoreSheet.Proofs.Rule.Callable
import ScoreSheet.Proofs.Rule.Printing
import ScoreSheet.Proofs.Rule.Spelling
set_option autoImplicit false

namespace ScoreSheet.Rule
open Text

/-- Hands all arguments on to `target`; `rest` is the name that it takes them under. -/
def forwarder (target rest : String) : FunctionSource :=
  ⟨"..." ++ rest, "return " ++ target ++ "(..." ++ rest ++ ");"⟩

def forwarding (name target rest : String) : Function :=
  ⟨name, ⟨[], some rest⟩, [.return (some (.call target [.spread (.name rest)]))]⟩

theorem tokenize_rest {rest : String} (h : isIdentifier rest) : ∃ p q,
    tokenize ("..." ++ rest) =
      .ok [⟨.sign .ellipsis, .start⟩, ⟨wordToken rest, p⟩, ⟨.stop, q⟩] := by
  obtain ⟨c, cs, hr, hc, hcs⟩ := isIdentifier_iff.1 h
  let p := Position.start.advanceAll ['.', '.', '.']
  have word := readTokens_word hc hcs .nil (cs.length + 3) p
  rw [List.append_nil, ← hr, String.ofList_toList] at word
  have size : ("..." ++ rest).toList.length = cs.length + 4 := by
    simp [String.toList_append, hr]
  refine ⟨p, p.advanceAll rest.toList, ?_⟩
  unfold tokenize Source.start
  rw [size, String.toList_append]
  exact congrArg (Except.map (⟨.sign .ellipsis, .start⟩ :: ·)) word

section Bodies
variable {target rest : String} (ht : isIdentifier target) (hr : isIdentifier rest)
include ht hr

theorem readTokens_spreading (fuel : Nat) (p : Position) : ∃ q u v w x y,
    readTokens (fuel + 7)
        ⟨target.toList ++ '(' :: '.' :: '.' :: '.' :: (rest.toList ++ [')', ';']), p⟩ =
      .ok [⟨wordToken target, p⟩, ⟨.sign .leftParen, q⟩, ⟨.sign .ellipsis, u⟩,
        ⟨wordToken rest, v⟩, ⟨.sign .rightParen, w⟩, ⟨.sign .semicolon, x⟩, ⟨.stop, y⟩] := by
  obtain ⟨c, cs, ht, hc, hcs⟩ := isIdentifier_iff.1 ht
  obtain ⟨d, ds, hr, hd, hds⟩ := isIdentifier_iff.1 hr
  let q := p.advanceAll target.toList
  let u := q.advance '('
  let v := u.advanceAll ['.', '.', '.']
  let w := v.advanceAll rest.toList
  have ends_target :
      EndsRun isNameChar ('(' :: '.' :: '.' :: '.' :: (rest.toList ++ [')', ';'])) :=
    .cons (by decide)
  have first := readTokens_word hc hcs ends_target (fuel + 6) p
  rw [← ht, String.ofList_toList] at first
  have ends_rest : EndsRun isNameChar [')', ';'] := .cons (by decide)
  have second := readTokens_word hd hds ends_rest (fuel + 3) v
  rw [← hr, String.ofList_toList] at second
  refine ⟨q, u, v, w, w.advance ')', (w.advance ')').advance ';', first.trans ?_⟩
  exact congrArg (fun ts => Except.map (⟨wordToken target, p⟩ :: ·)
    (Except.map (⟨.sign .leftParen, q⟩ :: ·) (Except.map (⟨.sign .ellipsis, u⟩ :: ·) ts))) second

theorem tokenize_forwarder : ∃ p q u v w x y, tokenize (forwarder target rest).body =
    .ok [⟨.keyword .return, .start⟩, ⟨wordToken target, p⟩, ⟨.sign .leftParen, q⟩,
      ⟨.sign .ellipsis, u⟩, ⟨wordToken rest, v⟩, ⟨.sign .rightParen, w⟩, ⟨.sign .semicolon, x⟩,
      ⟨.stop, y⟩] := by
  let call := target.toList ++ '(' :: '.' :: '.' :: '.' :: (rest.toList ++ [')', ';'])
  have text : (forwarder target rest).body.toList =
      'r' :: ['e', 't', 'u', 'r', 'n'] ++ ' ' :: call := by
    simp [forwarder, String.toList_append, call]
  let fuel := target.toList.length + rest.toList.length + 5
  have size : (forwarder target rest).body.toList.length = fuel + 8 := by
    simp [text, call, fuel]
    omega
  have start : isNameStart 'r' := rfl
  have word : ∀ d ∈ ['e', 't', 'u', 'r', 'n'], isNameChar d := List.all_eq_true.1 rfl
  have behind : EndsRun isNameChar (' ' :: call) := .cons (by decide)
  have keyword : wordToken (.ofList ('r' :: ['e', 't', 'u', 'r', 'n'])) = .keyword .return :=
    wordToken_keyword (by decide)
  let p := (Position.start.advanceAll ['r', 'e', 't', 'u', 'r', 'n']).advance ' '
  obtain ⟨q, u, v, w, x, y, read⟩ := readTokens_spreading ht hr (fuel + 1) p
  refine ⟨p, q, u, v, w, x, y, ?_⟩
  unfold tokenize Source.start
  rw [size, text, readTokens_word start word behind, keyword, readTokens_blank, read]
  rfl

end Bodies

theorem wordToken_cases (word : String) :
    Keyword.ofWord? word = none ∧ wordToken word = .name word ∨
      ∃ k, Keyword.ofWord? word = some k ∧ wordToken word = .keyword k := by
  unfold wordToken
  cases Keyword.ofWord? word with
  | none => exact .inl ⟨rfl, rfl⟩
  | some k => exact .inr ⟨k, rfl, rfl⟩

theorem not_isName {word : String} {k : Keyword} (h : Keyword.ofWord? word = some k) :
    ¬ IsName word := fun name => nomatch name.2.symm.trans h

theorem parseParameters_rest {rest : String} (h : isIdentifier rest) {p : Parameters} :
    parseParameters ("..." ++ rest) = .ok p ↔ IsName rest ∧ p = ⟨[], some rest⟩ := by
  obtain ⟨_, _, read⟩ := tokenize_rest h
  unfold parseParameters
  rw [read]
  rcases wordToken_cases rest with ⟨name, token⟩ | ⟨k, keyword, token⟩
  · rw [token]
    constructor
    · rintro ⟨⟩
      exact ⟨⟨h, name⟩, rfl⟩
    · rintro ⟨-, rfl⟩
      rfl
  · rw [token]
    exact iff_of_false (fun h => nomatch h) fun h => not_isName keyword h.1

theorem statements_keyword (k : Keyword) (rest : Token) (o p q u v w x y : Position) : ∃ e,
    statements 8 [⟨.keyword .return, o⟩, ⟨.keyword k, p⟩, ⟨.sign .leftParen, q⟩,
      ⟨.sign .ellipsis, u⟩, ⟨rest, v⟩, ⟨.sign .rightParen, w⟩, ⟨.sign .semicolon, x⟩,
      ⟨.stop, y⟩] = .error e := by
  cases k <;> exact ⟨_, rfl⟩

theorem parseBody_forwarder {target rest : String} (ht : isIdentifier target) (hr : IsName rest)
    {body : List Stmt} : parseBody (forwarder target rest).body = .ok body ↔
      IsName target ∧ body = [.return (some (.call target [.spread (.name rest)]))] := by
  obtain ⟨p, q, u, v, w, x, y, read⟩ := tokenize_forwarder ht hr.1
  have name : wordToken rest = .name rest := by
    rw [wordToken, hr.2]
    rfl
  unfold parseBody
  rw [read, name]
  rcases wordToken_cases target with ⟨name, token⟩ | ⟨k, keyword, token⟩
  · rw [token]
    constructor
    · rintro ⟨⟩
      exact ⟨⟨ht, name⟩, rfl⟩
    · rintro ⟨-, rfl⟩
      rfl
  · obtain ⟨e, failed⟩ := statements_keyword k (.name rest) .start p q u v w x y
    rw [token]
    constructor
    · intro h
      cases failed.symm.trans h
    · exact fun h => absurd h.1 (not_isName keyword)

theorem compileFunction_forwarder {name target rest : String} (ht : isIdentifier target)
    (hr : isIdentifier rest) {f : Function} :
    compileFunction name (forwarder target rest) = .ok f ↔
      Declarable name ∧ IsName target ∧ IsName rest ∧ f = forwarding name target rest := by
  rw [compileFunction_ok]
  refine and_congr_right fun _ => ⟨?_, ?_⟩
  · rintro ⟨p, body, parameters, -, parsed, rfl⟩
    obtain ⟨hr, rfl⟩ := (parseParameters_rest hr).1 parameters
    obtain ⟨ht, rfl⟩ := (parseBody_forwarder ht hr).1 parsed
    exact ⟨ht, hr, rfl⟩
  · rintro ⟨ht', hr', rfl⟩
    exact ⟨_, _, (parseParameters_rest hr).2 ⟨hr', rfl⟩, List.pairwise_singleton _ _,
      (parseBody_forwarder ht hr').2 ⟨ht', rfl⟩, rfl⟩

end ScoreSheet.Rule
