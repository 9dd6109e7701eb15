import ScoreSheet.Proofs.Rule.PrintedExpression
set_option autoImplicit false

/-! A printed statement ends with its own semicolon or brace, so nothing that follows belongs
to it, save an `else` behind a branch. The first token of a statement is no closing brace
and no `else`: so the reader of a body goes on with it, and the branch before it is over. -/
namespace ScoreSheet.Rule

structure EndsStatement (rest : Tokens) : Prop where
  ne_nil : rest ≠ []
  no_else : peek rest ≠ .keyword .else

structure Token.Begins (t : Token) : Prop where
  no_else : t ≠ .keyword .else
  brace : t ≠ .sign .rightBrace
  stop : t ≠ .stop

theorem Token.ne_of_starts {t u : Token} (ht : t.starts = true) (hu : u.starts = false) :
    t ≠ u := by
  rintro rfl
  rw [hu] at ht
  cases ht

theorem Token.begins_of_starts {t : Token} (h : t.starts = true) : t.Begins :=
  ⟨ne_of_starts h rfl, ne_of_starts h rfl, ne_of_starts h rfl⟩

theorem peek_words {ts : Tokens} {t : Token} {v : List Token}
    (h : ts.map Located.token = t :: v) (rest : Tokens) : peek (ts ++ rest) = t := by
  obtain ⟨u, us, rfl, hu, -⟩ := List.map_eq_cons_iff.1 h
  exact hu

theorem length_pos_words {ts : Tokens} {t : Token} {v : List Token}
    (h : ts.map Located.token = t :: v) : 0 < ts.length := by
  rw [← List.length_map Located.token, h]
  exact Nat.zero_lt_succ _

/-- The tokens up to the last word, and the token of that word. -/
theorem exists_last {ts : Tokens} {w : List Token} {t : Token}
    (h : ts.map Located.token = w ++ [t]) : ∃ us u, us.map Located.token = w ∧ u.token = t ∧
      ∀ rest, ts ++ rest = us ++ u :: rest := by
  obtain ⟨us, u, vs, rfl, hus, hu, hvs⟩ := exists_around h
  rw [List.map_eq_nil_iff.1 hvs]
  exact ⟨us, u, hus, hu, fun rest => by rw [List.append_assoc, List.singleton_append]⟩

theorem Expr.Normal.derives_statementWords {e : Expr} (h : e.Normal) :
    Derives .expression e.statementWords e := by
  unfold statementWords
  split
  · have parentheses : DerivesAt 9 (.sign .leftParen :: (e.words ++ [.sign .rightParen])) e :=
      Derives.paren h.derives
    exact parentheses.weaken (Nat.le_refl _) (Nat.zero_le _)
  · exact h.derives

theorem Expr.statementWords_head (e : Expr) :
    e.statementWords.head? ≠ some (.sign .leftBrace) := by
  unfold statementWords
  split
  · exact fun h => nomatch h
  · assumption

theorem Expr.Normal.statementWords_cons {e : Expr} (h : e.Normal) :
    ∃ t v, e.statementWords = t :: v ∧ t.starts = true ∧ t ≠ .sign .leftBrace := by
  obtain ⟨t, v, words, ht⟩ := h.derives_statementWords.head
  have head := e.statementWords_head
  rw [words] at head
  exact ⟨t, v, words, ht, fun brace => head (congrArg some brace)⟩

theorem Stmt.Normal.words_cons {s : Stmt} (h : s.Normal) :
    ∃ t v, s.words = t :: v ∧ t.Begins := by
  cases h with
  | @expr e he =>
    obtain ⟨t, v, words, ht, -⟩ := he.statementWords_cons
    exact ⟨t, _, by rw [Stmt.words, words]; rfl, Token.begins_of_starts ht⟩
  | @«return» e he =>
    cases e <;> exact ⟨_, _, by rw [Stmt.words], ⟨by simp, by simp, by simp⟩⟩
  | _ => exact ⟨_, _, by rw [Stmt.words], ⟨by simp, by simp, by simp⟩⟩

/-- Behind a statement stands another one or what stands behind the body. -/
theorem endsStatement_body {body : List Stmt} (h : ∀ s ∈ body, s.Normal) {ts rest : Tokens}
    (ht : ts.map Located.token = bodyWords body) (hr : EndsStatement rest) :
    EndsStatement (ts ++ rest) := by
  cases body with
  | nil => rwa [List.map_eq_nil_iff.1 ht, List.nil_append]
  | cons s body =>
    obtain ⟨t, v, words, begins⟩ := (h s List.mem_cons_self).words_cons
    rw [bodyWords, words] at ht
    exact ⟨List.append_ne_nil_of_right_ne_nil ts hr.ne_nil, peek_words ht rest ▸ begins.no_else⟩

section Bodies
variable {statement : Parse (Option Stmt)} {body : List Stmt}
  (hn : ∀ s ∈ body, s.Normal)
  (h : ∀ s ∈ body, Accepts statement EndsStatement s.words (some s))
include hn h

theorem blockBody_encloses : Encloses (blockBody statement) .rightBrace (bodyWords body) body := by
  induction body with
  | nil =>
    intro fuel ts c rest ht hc hr hf
    rw [List.map_eq_nil_iff.1 ht, List.nil_append]
    obtain ⟨fuel, rfl⟩ := Nat.exists_eq_add_of_le' (Nat.lt_of_le_of_lt (Nat.zero_le _) hf)
    rw [blockBody, show peek (c :: rest) = .sign .rightBrace from hc]
    dsimp only
    rw [advance_cons c hr]
    exact .refl _
  | cons s body ih =>
    intro fuel ts c rest ht hc hr hf
    obtain ⟨normal, later⟩ := List.forall_mem_cons.1 hn
    obtain ⟨read, others⟩ := List.forall_mem_cons.1 h
    obtain ⟨ts, us, rfl, hts, hus⟩ := List.map_eq_append_iff.1 ht
    obtain ⟨t, v, words, begins⟩ := normal.words_cons
    obtain ⟨fuel, rfl⟩ := Nat.exists_eq_add_of_le' (Nat.lt_of_le_of_lt (Nat.zero_le _) hf)
    have ends : EndsStatement (us ++ c :: rest) :=
      endsStatement_body later hus ⟨List.cons_ne_nil _ _, fun hp => nomatch hc.symm.trans hp⟩
    have first := peek_words (hts.trans words) (us ++ c :: rest)
    have nonempty := length_pos_words (hts.trans words)
    have enough : us.length < fuel := by
      rw [List.length_append] at hf
      omega
    rw [List.append_assoc, blockBody]
    split
    · exact absurd (first.symm.trans ‹_›) begins.brace
    · exact absurd (first.symm.trans ‹_›) begins.stop
    · refine ((read ts _ hts ends).bind _).trans ?_
      exact (ih later others fuel us c rest hus hc hr enough).bind _

/-- A body in braces, with as much fuel as there are tokens. -/
theorem blockBody_braces {ts : Tokens} {o c : Located} {rest : Tokens}
    (ht : ts.map Located.token = bodyWords body) (hc : c.token = .sign .rightBrace)
    (hr : rest ≠ []) :
    Reaches (blockBody statement (o :: (ts ++ c :: rest)).length
      (advance (o :: (ts ++ c :: rest)))) (.ok (body, rest)) := by
  have behind : ts ++ c :: rest ≠ [] :=
    List.append_ne_nil_of_right_ne_nil _ (List.cons_ne_nil _ _)
  have enough : ts.length < (o :: (ts ++ c :: rest)).length := by
    rw [List.length_cons, List.length_append]
    omega
  rw [advance_cons o behind]
  exact blockBody_encloses hn h _ ts c rest ht hc hr enough

theorem branchBody_braces {ts : Tokens} {o c : Located} {rest : Tokens}
    (ho : o.token = .sign .leftBrace) (ht : ts.map Located.token = bodyWords body)
    (hc : c.token = .sign .rightBrace) (hr : rest ≠ []) :
    Reaches (branchBody statement (o :: (ts ++ c :: rest))) (.ok (body, rest)) := by
  unfold branchBody
  rw [if_pos (show peek (o :: (ts ++ c :: rest)) = _ from ho)]
  exact blockBody_braces hn h ht hc hr

end Bodies

section Forms
variable {expression : Parse Expr} {statement : Parse (Option Stmt)}

theorem endStatement_semicolon {s : Stmt} {c : Located} {rest : Tokens}
    (hc : c.token = .sign .semicolon) (hr : rest ≠ []) :
    endStatement s (c :: rest) = .ok (some s, rest) := by
  unfold endStatement
  rw [show peek (c :: rest) = .sign .semicolon from hc]
  dsimp only
  rw [advance_cons c hr]

/-- An expression up to its semicolon. -/
theorem ended_reaches {w : List Token} {e : Expr} (he : Accepts expression EndsExpression w e)
    {s : Expr → Stmt} {ts : Tokens} {c : Located} {rest : Tokens}
    (ht : ts.map Located.token = w) (hc : c.token = .sign .semicolon) (hr : rest ≠ []) :
    Reaches (expression (ts ++ c :: rest) >>= fun x => endStatement (s x.1) x.2)
      (.ok (some (s e), rest)) := by
  refine ((he ts (c :: rest) ht (.of_sign hc rfl (by decide) rest)).bind _).trans ?_
  dsimp only [bind, Except.bind]
  rw [endStatement_semicolon hc hr]
  exact .refl _

/-- A statement that starts like an expression and assigns nothing is an expression. -/
theorem statementForm_expr {ts : Tokens} (hs : (peek ts).starts = true)
    (hb : peek ts ≠ .sign .leftBrace) (ha : peek (advance ts) ≠ .sign .assign) :
    statementForm expression statement ts =
      expression ts >>= fun x => endStatement (.expr x.1) x.2 := by
  unfold statementForm
  split
  case h_2 => exact absurd ‹_› hb
  case h_6 => rw [if_neg ha]
  case h_7 => rfl
  all_goals exact absurd ‹_› (Token.ne_of_starts hs rfl)

theorem accepts_expr {e : Expr} (h : e.Normal)
    (he : Accepts expression EndsExpression e.statementWords e) :
    Accepts (statementForm expression statement) EndsStatement (Stmt.expr e).words
      (some (.expr e)) := by
  intro ts rest ht hr
  rw [Stmt.words] at ht
  obtain ⟨ts, c, hts, hc, parts⟩ := exists_last ht
  rw [parts]
  obtain ⟨t, v, words, starts, brace⟩ := h.statementWords_cons
  obtain ⟨u, us, rfl, rfl, hv⟩ := List.map_eq_cons_iff.1 (hts.trans words)
  have no_assign : peek (advance (u :: us ++ c :: rest)) ≠ .sign .assign := by
    have absent := h.derives_statementWords.assign_notMem
    rw [List.cons_append,
      advance_cons u (List.append_ne_nil_of_right_ne_nil us (List.cons_ne_nil c rest))]
    cases us with
    | nil => exact fun hp => nomatch hc.symm.trans hp
    | cons a us =>
      intro (hp : a.token = .sign .assign)
      rw [words, ← hv, List.map_cons, hp] at absent
      exact absent (List.mem_cons_of_mem _ List.mem_cons_self)
  have form : statementForm expression statement (u :: us ++ c :: rest) = _ :=
    statementForm_expr starts brace no_assign
  rw [form]
  exact ended_reaches (s := .expr) he hts hc hr.ne_nil

section Parts
variable {w : List Token} {e : Expr} (he : Accepts expression EndsExpression w e)
include he

theorem accepts_declare (n : String) :
    Accepts (statementForm expression statement) EndsStatement
      (.keyword .let :: .name n :: .sign .assign :: (w ++ [.sign .semicolon]))
      (some (.declare n e)) := by
  intro ts rest ht hr
  obtain ⟨k, ts, rfl, hk, hts⟩ := List.map_eq_cons_iff.1 ht
  obtain ⟨u, ts, rfl, hu, hts⟩ := List.map_eq_cons_iff.1 hts
  obtain ⟨a, ts, rfl, ha, hts⟩ := List.map_eq_cons_iff.1 hts
  obtain ⟨ts, c, hts, hc, parts⟩ := exists_last hts
  rw [List.cons_append, List.cons_append, List.cons_append, parts]
  have behind : ts ++ c :: rest ≠ [] :=
    List.append_ne_nil_of_right_ne_nil _ (List.cons_ne_nil _ _)
  unfold statementForm
  rw [show peek (k :: u :: a :: (ts ++ c :: rest)) = .keyword .let from hk]
  dsimp only
  rw [advance_cons k (List.cons_ne_nil _ _), identifier_cons hu (List.cons_ne_nil _ _)]
  dsimp only [bind, Except.bind]
  rw [expect_cons ha behind]
  exact ended_reaches (s := .declare n) he hts hc hr.ne_nil

theorem accepts_assign (n : String) :
    Accepts (statementForm expression statement) EndsStatement
      (.name n :: .sign .assign :: (w ++ [.sign .semicolon])) (some (.assign n e)) := by
  intro ts rest ht hr
  obtain ⟨u, ts, rfl, hu, hts⟩ := List.map_eq_cons_iff.1 ht
  obtain ⟨a, ts, rfl, ha, hts⟩ := List.map_eq_cons_iff.1 hts
  obtain ⟨ts, c, hts, hc, parts⟩ := exists_last hts
  rw [List.cons_append, List.cons_append, parts]
  have behind : ts ++ c :: rest ≠ [] :=
    List.append_ne_nil_of_right_ne_nil _ (List.cons_ne_nil _ _)
  unfold statementForm
  rw [show peek (u :: a :: (ts ++ c :: rest)) = .name n from hu]
  dsimp only
  rw [advance_cons u (List.cons_ne_nil _ _),
    if_pos (show peek (a :: (ts ++ c :: rest)) = _ from ha), advance_cons a behind]
  exact ended_reaches (s := .assign n) he hts hc hr.ne_nil

theorem accepts_return_some (hw : Category.expression.Head w) :
    Accepts (statementForm expression statement) EndsStatement
      (.keyword .return :: (w ++ [.sign .semicolon])) (some (.return (some e))) := by
  intro ts rest ht hr
  obtain ⟨k, ts, rfl, hk, hts⟩ := List.map_eq_cons_iff.1 ht
  obtain ⟨ts, c, hts, hc, parts⟩ := exists_last hts
  rw [List.cons_append, parts]
  have behind : ts ++ c :: rest ≠ [] :=
    List.append_ne_nil_of_right_ne_nil _ (List.cons_ne_nil _ _)
  obtain ⟨t, v, words, starts⟩ := hw
  have first := peek_words (hts.trans words) (c :: rest)
  unfold statementForm
  rw [show peek (k :: (ts ++ c :: rest)) = .keyword .return from hk]
  dsimp only
  rw [advance_cons k behind]
  split
  · exact absurd (first.symm.trans ‹_›) (Token.ne_of_starts starts rfl)
  · exact absurd (first.symm.trans ‹_›) (Token.ne_of_starts starts rfl)
  · exact absurd (first.symm.trans ‹_›) (Token.ne_of_starts starts rfl)
  · exact ended_reaches (s := fun e => .return (some e)) he hts hc hr.ne_nil

end Parts

theorem accepts_return_none :
    Accepts (statementForm expression statement) EndsStatement
      [.keyword .return, .sign .semicolon] (some (.return none)) := by
  intro ts rest ht hr
  obtain ⟨k, ts, rfl, hk, hts⟩ := List.map_eq_cons_iff.1 ht
  obtain ⟨c, us, rfl, hc, hus⟩ := List.map_eq_cons_iff.1 hts
  rw [List.map_eq_nil_iff.1 hus, List.cons_append, List.singleton_append]
  unfold statementForm
  rw [show peek (k :: c :: rest) = .keyword .return from hk]
  dsimp only
  rw [advance_cons k (List.cons_ne_nil _ _), show peek (c :: rest) = .sign .semicolon from hc]
  dsimp only
  rw [endStatement_semicolon hc hr.ne_nil]
  exact .refl _

theorem accepts_block {body : List Stmt} (hn : ∀ s ∈ body, s.Normal)
    (h : ∀ s ∈ body, Accepts statement EndsStatement s.words (some s)) :
    Accepts (statementForm expression statement) EndsStatement (Stmt.block body).words
      (some (.block body)) := by
  intro ts rest ht hr
  rw [Stmt.words] at ht
  obtain ⟨o, ts, rfl, ho, hts⟩ := List.map_eq_cons_iff.1 ht
  obtain ⟨ts, c, hts, hc, parts⟩ := exists_last hts
  rw [List.cons_append, parts]
  unfold statementForm
  rw [show peek (o :: (ts ++ c :: rest)) = .sign .leftBrace from ho]
  exact (blockBody_braces hn h hts hc hr.ne_nil).bind _

theorem accepts_branch {w : List Token} {c : Expr} {yes : List Stmt} {no : Option (List Stmt)}
    (hc : Accepts expression EndsExpression w c) (hyes : ∀ s ∈ yes, s.Normal)
    (hno : ∀ body ∈ no, ∀ s ∈ body, s.Normal)
    (hy : ∀ s ∈ yes, Accepts statement EndsStatement s.words (some s))
    (hn : ∀ body ∈ no, ∀ s ∈ body, Accepts statement EndsStatement s.words (some s)) :
    Accepts (statementForm expression statement) EndsStatement
      (.keyword .if :: .sign .leftParen :: (w ++ .sign .rightParen :: .sign .leftBrace ::
        (bodyWords yes ++ .sign .rightBrace :: elseWords no))) (some (.branch c yes no)) := by
  intro ts rest ht hr
  obtain ⟨k, ts, rfl, hk, behind_if⟩ := List.map_eq_cons_iff.1 ht
  obtain ⟨p, ts, rfl, hp, behind_open⟩ := List.map_eq_cons_iff.1 behind_if
  obtain ⟨ts, q, us, rfl, hts, hq, behind_condition⟩ := exists_around behind_open
  obtain ⟨o, us, rfl, ho, hus⟩ := List.map_eq_cons_iff.1 behind_condition
  obtain ⟨us, b, vs, rfl, hus, hb, hvs⟩ := exists_around hus
  have past_yes : vs ++ rest ≠ [] := List.append_ne_nil_of_right_ne_nil _ hr.ne_nil
  have past_paren : ts ++ q :: o :: (us ++ b :: (vs ++ rest)) ≠ [] :=
    List.append_ne_nil_of_right_ne_nil _ (List.cons_ne_nil _ _)
  simp only [List.cons_append, List.append_assoc]
  unfold statementForm
  rw [show peek (k :: _) = .keyword .if from hk]
  dsimp only
  rw [advance_cons k (List.cons_ne_nil _ _), expect_cons hp past_paren]
  dsimp only [bind, Except.bind]
  refine ((hc ts (q :: o :: (us ++ b :: (vs ++ rest))) hts
    (.of_sign hq rfl (by decide) _)).bind _).trans ?_
  dsimp only [bind, Except.bind]
  rw [expect_cons hq (List.cons_ne_nil _ _)]
  refine ((branchBody_braces hyes hy ho hus hb past_yes).bind _).trans ?_
  dsimp only [bind, Except.bind]
  cases no with
  | none =>
    rw [List.map_eq_nil_iff.1 hvs, List.nil_append, if_neg hr.no_else]
    exact .refl _
  | some no =>
    obtain ⟨l, vs, rfl, hl, hvs⟩ := List.map_eq_cons_iff.1 hvs
    obtain ⟨o', vs, rfl, ho', hvs⟩ := List.map_eq_cons_iff.1 hvs
    obtain ⟨vs, d, hvs, hd, parts⟩ := exists_last hvs
    rw [List.cons_append, List.cons_append, parts,
      if_pos (show peek (l :: _) = _ from hl), advance_cons l (List.cons_ne_nil _ _)]
    exact (branchBody_braces (hno no rfl) (hn no rfl) ho' hvs hd hr.ne_nil).bind _

end Forms

/-- A printed statement is read in front of whatever ends it, however much room is left. -/
theorem Stmt.Normal.accepted {s : Stmt} (h : s.Normal) (room : Nat) :
    Accepts (statement room) EndsStatement s.words (some s) := by
  have recognized (room : Nat) {w : List Token} {e : Expr} (he : Derives .expression w e) :
      Accepts (expression room) EndsExpression w e := he.recognized room chainLimit
  induction room generalizing s with
  | zero => exact outOfRoom_accepts _ _ _
  | succ room ih =>
    -- each statement inside has one room less
    cases h with
    | expr he => exact accepts_expr he (recognized room he.derives_statementWords)
    | declare _ he => exact accepts_declare (recognized room he.derives) _
    | assign _ he => exact accepts_assign (recognized room he.derives) _
    | branch hc hy hn =>
      exact accepts_branch (recognized room hc.derives) hy hn (fun s hs => ih (hy s hs))
        fun body hb s hs => ih (hn body hb s hs)
    | block hb => exact accepts_block hb fun s hs => ih (hb s hs)
    | @«return» e he =>
      cases e with
      | none => exact accepts_return_none
      | some e =>
        exact accepts_return_some (recognized room (he e rfl).derives) (he e rfl).derives.head

theorem Expr.Normal.printable_statementWords {e : Expr} (h : e.Normal) :
    Printable e.statementWords := by
  unfold statementWords
  split <;> simp [h.printable]

theorem printable_body {body : List Stmt} (h : ∀ s ∈ body, Printable s.words) :
    Printable (bodyWords body) := by
  induction body with
  | nil => exact printable_nil
  | cons s body ih =>
    obtain ⟨hs, later⟩ := List.forall_mem_cons.1 h
    simp [bodyWords, hs, ih later]

theorem Stmt.Normal.printable {s : Stmt} (h : s.Normal) : Printable s.words := by
  induction h with
  | expr he => simp [Stmt.words, he.printable_statementWords]
  | declare hn he | assign hn he => simp [Stmt.words, hn, he.printable]
  | @branch c yes no hc _ _ ihy ihn =>
    have otherwise : Printable (elseWords no) := by
      cases no with
      | none => exact printable_nil
      | some body => simp [elseWords, printable_body (ihn body rfl)]
    simp [Stmt.words, hc.printable, printable_body ihy, otherwise]
  | block _ ih => simp [Stmt.words, printable_body ih]
  | @«return» e he =>
    cases e with
    | none => simp [Stmt.words]
    | some e => simp [Stmt.words, (he e rfl).printable]

end ScoreSheet.Rule
