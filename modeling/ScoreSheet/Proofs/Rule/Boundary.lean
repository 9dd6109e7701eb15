import ScoreSheet.Rule.Parser
set_option autoImplicit false

namespace ScoreSheet.Rule

inductive Ended : Tokens → Prop where
  | stop {t : Located} (h : t.token = .stop) : Ended [t]
  | more {t : Located} {ts : Tokens} (h : t.token ≠ .stop) (hs : Ended ts) : Ended (t :: ts)

theorem advance_cons (t : Located) {ts : Tokens} (h : ts ≠ []) : advance (t :: ts) = ts := by
  cases ts with
  | nil => exact absurd rfl h
  | cons u ts => rfl

theorem Ended.ne_nil {ts : Tokens} (h : Ended ts) : ts ≠ [] := by
  cases h <;> exact List.cons_ne_nil _ _

theorem Ended.length_pos {ts : Tokens} (h : Ended ts) : 0 < ts.length :=
  List.length_pos_iff.2 h.ne_nil

theorem Ended.next {ts : Tokens} (h : Ended ts) (hp : peek ts ≠ .stop) :
    ∃ t, t.token = peek ts ∧ ts = t :: advance ts ∧ Ended (advance ts) := by
  cases h with
  | stop ht => exact absurd ht hp
  | more ht hs =>
    rw [advance_cons _ hs.ne_nil]
    exact ⟨_, rfl, rfl, hs⟩

theorem expect_cons {s : Sign} {t : Located} {rest : Tokens} (ht : t.token = .sign s)
    (hr : rest ≠ []) : expect s (t :: rest) = .ok rest := by
  unfold expect
  rw [if_pos (show peek (t :: rest) = .sign s from ht), advance_cons t hr]

theorem identifier_cons {n : String} {t : Located} {rest : Tokens} (ht : t.token = .name n)
    (hr : rest ≠ []) : identifier (t :: rest) = .ok (n, rest) := by
  unfold identifier
  rw [show peek (t :: rest) = .name n from ht]
  dsimp only
  rw [advance_cons t hr]

/-- Neither a selector, nor a call, nor an operator of the levels comes next. -/
structure Ends (levels : List Level) (rest : Tokens) : Prop where
  ne_nil : rest ≠ []
  dot : peek rest ≠ .sign .dot
  bracket : peek rest ≠ .sign .leftBracket
  paren : peek rest ≠ .sign .leftParen
  operator : ∀ level ∈ levels, level.operationAt? rest = none

theorem Ends.mono {levels levels' : List Level} {rest : Tokens} (h : Ends levels rest)
    (hl : ∀ level ∈ levels', level ∈ levels) : Ends levels' rest :=
  { h with operator := fun level hm => h.operator level (hl level hm) }

def Token.ends : Token → Bool
  | .sign .rightParen | .sign .rightBracket | .sign .rightBrace | .sign .comma | .sign .colon
  | .sign .semicolon | .sign .question | .stop => true
  | _ => false

theorem Ends.of_token {t : Located} {levels : List Level} (h : t.token.ends = true)
    (rest : Tokens) : Ends levels (t :: rest) := by
  have other {s : Sign} (hs : (Token.sign s).ends = false) :
      peek (t :: rest) ≠ .sign s := by
    intro (hp : t.token = .sign s)
    rw [hp, hs] at h
    cases h
  refine ⟨List.cons_ne_nil _ _, other rfl, other rfl, other rfl, fun level _ => ?_⟩
  unfold Level.operationAt?
  split
  · rename_i s hp
    rw [show t.token = .sign s from hp] at h
    cases s <;> first | exact absurd h (by decide) | cases level <;> rfl
  · rfl

theorem chain_stop {level : Level} {operand : Nat → Parse Expr} {links : Nat} {left : Expr}
    {rest : Tokens} (h : level.operationAt? rest = none) :
    chain level operand links left rest = .ok (left, rest) := by
  cases links with
  | zero => rw [chain, h]
  | succ links => rw [chain, h]

theorem selectors_stop {expression : Nat → Parse Expr} {links : Nat} {e : Expr}
    {rest : Tokens} (h : Ends [] rest) :
    selectors expression links e rest = .ok (e, rest) := by
  cases links with
  | zero => rw [selectors, if_neg (not_or.2 ⟨h.dot, h.bracket⟩), if_neg h.paren]
  | succ links => rw [selectors, if_neg h.dot, if_neg h.bracket, if_neg h.paren]

theorem primary_name {expression : Parse Expr} {t : Located} {n : String}
    (ht : t.token = .name n) {rest : Tokens} (hne : rest ≠ [])
    (hp : peek rest ≠ .sign .leftParen) :
    primary expression (t :: rest) = .ok (.name n, rest) := by
  unfold primary
  rw [show peek (t :: rest) = .name n from ht]
  dsimp only
  rw [advance_cons t hne, if_neg hp]

/-- What follows a prefix operator is of no concern where there is none. -/
theorem grammar_operand_expression (room : Nat) : ∃ deeper,
    (grammar room).operand = operand deeper (grammar room).expression := by
  cases room with
  | zero => exact ⟨_, rfl⟩
  | succ room => exact ⟨_, rfl⟩

end ScoreSheet.Rule
