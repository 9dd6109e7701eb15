import ScoreSheet.Proofs.Rule.LongPaths
import ScoreSheet.Proofs.Rule.StatementBound
set_option autoImplicit false

/-! The link allowance holds for right turns. With left turns a path can be seven times as
long for every nested expression, and every shorter length occurs as well. -/
namespace ScoreSheet.Rule

theorem tokenize_words (words : List Word) : ∃ ts stop,
    tokenize (.ofList (spell words)) = .ok (ts ++ [stop]) ∧
      ts.map Located.token = words.map Word.token ∧ stop.token = .stop := by
  obtain ⟨all, hread, hall⟩ := tokenize_spell words
  obtain ⟨ts, stops, rfl, ht, hstop⟩ := List.map_eq_append_iff.1 hall
  obtain ⟨stop, none, rfl, hs, hnone⟩ := List.map_eq_cons_iff.1 hstop
  rw [List.map_eq_nil_iff.1 hnone] at hread
  exact ⟨ts, stop, hread, ht, hs⟩

theorem closes_stop {stop : Located} (h : stop.token = .stop) : Closes [stop] :=
  ⟨List.cons_ne_nil _ _, .inr h⟩

theorem parseRule_reads {first : Word} {words : List Word} {e : Expr}
    (hf : first.token ≠ .sign .semicolon)
    (h : Reads (expression nestingLimit) Closes (first :: words) e) :
    parseRule (.ofList (spell (first :: words))) = .ok (some e) := by
  obtain ⟨ts, stop, hread, ht, hs⟩ := tokenize_words (first :: words)
  have whole := h ts [stop] ht (closes_stop hs)
  obtain ⟨t, ts, rfl, hfirst, -⟩ := List.map_eq_cons_iff.1 ht
  have no_semicolon : skipSemicolons (t :: ts ++ [stop]) = t :: ts ++ [stop] := by
    cases ts with
    | nil => exact if_neg (hfirst ▸ hf)
    | cons u ts => exact if_neg (hfirst ▸ hf)
  have some_token : peek (t :: ts ++ [stop]) ≠ .stop := by
    change t.token ≠ .stop
    rw [hfirst]
    cases first <;> exact fun h => nomatch h
  unfold parseRule
  rw [hread]
  dsimp only [bind, Except.bind]
  rw [no_semicolon, if_neg some_token, whole]
  exact if_pos hs

theorem parseBody_reads {words : List Word} {e : Expr}
    (h : Reads (expression (nestingLimit - 1)) Closes (.sign .leftParen :: words) e) :
    parseBody (.ofList (spell (.sign .leftParen :: words))) = .ok [.expr e] := by
  obtain ⟨ts, stop, hread, ht, hs⟩ := tokenize_words (.sign .leftParen :: words)
  have whole := h ts [stop] ht (closes_stop hs)
  obtain ⟨t, ts, rfl, hfirst, -⟩ := List.map_eq_cons_iff.1 ht
  have hpeek : peek (t :: ts ++ [stop]) = .sign .leftParen := hfirst
  have ended : statement nestingLimit (t :: ts ++ [stop]) = .ok (some (.expr e), [stop]) := by
    change statementForm (expression (nestingLimit - 1)) _ _ = _
    unfold statementForm
    rw [hpeek]
    dsimp only
    rw [whole]
    dsimp only [bind, Except.bind]
    unfold endStatement
    rw [show peek [stop] = .stop from hs]
  have nothing (fuel : Nat) : statements fuel [stop] = .ok [] := by
    cases fuel with
    | zero => exact if_pos hs
    | succ fuel => exact if_pos hs
  unfold parseBody
  rw [hread]
  dsimp only [bind, Except.bind]
  rw [List.cons_append, List.length_cons, statements]
  rw [← List.cons_append, if_neg (by rw [hpeek]; decide), ended]
  dsimp only [bind, Except.bind]
  rw [nothing]
  rfl

theorem exists_rule_path {n : Nat} (h : n ≤ 7 * nestingLimit * chainLimit) :
    ∃ text e path, parseRule text = .ok (some e) ∧ e.Path path ∧ path.length = n := by
  obtain ⟨words, e, path, hp, hlen, hreads⟩ :=
    grammar_attains (nestingLimit - 1) chainLimit n h
  have no_semicolon : (opening (nestingLimit - 1)).token ≠ .sign .semicolon := by decide
  exact ⟨_, e, path, parseRule_reads no_semicolon hreads, hp, hlen⟩

theorem exists_body_path {n : Nat} (h : n ≤ 7 * (nestingLimit - 1) * chainLimit) :
    ∃ text body s e path, parseBody text = .ok body ∧ s ∈ body ∧ s.Contains e ∧
      e.Path path ∧ path.length = n := by
  obtain ⟨words, e, path, hp, hlen, hreads⟩ :=
    grammar_attains (nestingLimit - 2) chainLimit n h
  exact ⟨_, _, _, e, path, parseBody_reads hreads, List.mem_singleton_self _, .expr e, hp, hlen⟩

inductive Accepted (text : String) : Expr → Prop where
  | rule {e : Expr} (h : parseRule text = .ok (some e)) : Accepted text e
  | body {body : List Stmt} {s : Stmt} {e : Expr} (h : parseBody text = .ok body)
      (hs : s ∈ body) (he : s.Contains e) : Accepted text e

theorem Accepted.right_turns {text : String} {e : Expr} (h : Accepted text e)
    {path : List Turn} (hp : e.Path path) : path.count .right ≤ chainLimit := by
  cases h with
  | rule h => exact (parseRule_within h path hp).1
  | body h hs he => exact (parseBody_within h _ hs e he path hp).1

theorem Accepted.within_limit_iff {text : String} {e : Expr} (h : Accepted text e) :
    (∀ path, e.Path path → path.length ≤ chainLimit) ↔
      ∀ path, e.Path path → .left ∈ path → path.length ≤ chainLimit := by
  constructor
  · intro hall path hp _
    exact hall path hp
  · -- A path without a left turn has no more turns than links.
    intro hleft path hp
    by_cases hl : .left ∈ path
    · exact hleft path hp hl
    · have only_right : ∀ turn ∈ path, Turn.right = turn := by
        intro turn ht
        cases turn with
        | left => exact absurd ht hl
        | right => rfl
      rw [← List.count_eq_length.2 only_right]
      exact h.right_turns hp

theorem accepted_path_lengths (n : Nat) :
    (∀ text e, Accepted text e →
      (∀ path, e.Path path → path.count .right ≤ chainLimit) ∧
      ((∀ path, e.Path path → path.length ≤ chainLimit) ↔
        ∀ path, e.Path path → .left ∈ path → path.length ≤ chainLimit)) ∧
    ((∃ text e path, parseRule text = .ok (some e) ∧ e.Path path ∧ path.length = n) ↔
      n ≤ 7 * nestingLimit * chainLimit) ∧
    ((∃ text body s e path, parseBody text = .ok body ∧ s ∈ body ∧ s.Contains e ∧
        e.Path path ∧ path.length = n) ↔
      n ≤ 7 * (nestingLimit - 1) * chainLimit) := by
  refine ⟨fun text e h => ⟨fun path hp => h.right_turns hp, h.within_limit_iff⟩,
    ⟨?_, exists_rule_path⟩, ⟨?_, exists_body_path⟩⟩
  · rintro ⟨text, e, path, h, hp, rfl⟩
    exact (parseRule_within h path hp).2
  · rintro ⟨text, body, s, e, path, h, hs, he, hp, rfl⟩
    exact (parseBody_within h s hs e he path hp).2

/-- As many sums behind one product as there are links. -/
def overlong : List (Level × Nat) :=
  [(.alternative, 0), (.conjunction, 0), (.equality, 0), (.comparison, 0), (.sum, chainLimit),
    (.product, 1)]

/-- The text is `a * a + a + ⋯ + a`. -/
theorem overlong_path :
    ∃ e path, parseRule (.ofList (spell (.name :: row overlong))) = .ok (some e) ∧
      e.Path path ∧ path.length = chainLimit + 1 := by
  obtain ⟨deeper, expression, hg⟩ := grammar_operand (nestingLimit - 1)
  have a_name : Attains ((grammar (nestingLimit - 1)).operand chainLimit) (Ends []) [.name] 0 := by
    rw [hg]
    exact operand_name (Nat.zero_le _)
  have each_fits : ∀ count ∈ overlong, count.2 ≤ chainLimit := by decide
  obtain ⟨e, path, hp, hlen, hreads⟩ := expression_attains rfl each_fits a_name
  exact ⟨e, path, parseRule_reads (fun h => nomatch h) hreads, hp, hlen⟩

end ScoreSheet.Rule
