import ScoreSheet.Proofs.Rule.Derivation
set_option autoImplicit false

/-! A nested statement takes the brace or the keyword in front of it, and an expression in a
statement spends one room more than its tokens. So no limit is met in a body that has fewer
tokens than there is room for statements, less one. -/
namespace ScoreSheet.Rule

abbrev Spends {α : Type} (n : Nat) (parse : Parse α) : Prop :=
  Reading (fun _ _ => True) n parse

theorem Reading.spends {α : Type} {D : List Token → α → Prop} {n : Nat} {parse : Parse α}
    (h : Reading D n parse) : Spends n parse :=
  fun ts hs => (h ts hs).mono (fun _ ⟨w, _, hw⟩ => ⟨w, trivial, hw⟩) id

theorem endStatement_outcome {s : Stmt} {ts : Tokens} {L : Prop} (h : Ended ts) :
    Outcome (fun x => ∃ w, Spans ts w x.2) L (endStatement s ts) := by
  unfold endStatement
  split
  · exact ⟨_, Spans.sign h ‹_›⟩
  · exact ⟨_, .refl h⟩
  · exact ⟨_, .refl h⟩
  · exact Outcome.unexpected _ _

section Statements
variable {expression : Parse Expr} {statement : Parse (Option Stmt)} {n : Nat}

theorem blockBody_spends (hs : Spends n statement) (fuel : Nat) :
    Spends n (blockBody statement fuel) := by
  induction fuel with
  | zero => exact fun ts _ => Outcome.unexpected ts _
  | succ fuel ih =>
    intro ts ended
    unfold blockBody
    split
    · exact ⟨_, trivial, Spans.sign ended ‹_›⟩
    · exact Outcome.unexpected _ _
    · refine (hs ts ended).bind id ?_
      rintro ⟨s, us⟩ ⟨w, -, (hw : Spans ts w us)⟩
      have longer := hw.length
      refine (ih us hw.ended).bind (fun h => by omega) ?_
      rintro ⟨body, rest⟩ ⟨v, -, (hv : Spans us v rest)⟩
      exact ⟨_, trivial, hw.trans hv⟩

theorem branchBody_spends (hs : Spends n statement) : Spends n (branchBody statement) := by
  intro ts ended
  unfold branchBody
  split
  · have brace := Spans.sign ended ‹_›
    have longer := brace.length_token
    refine (blockBody_spends hs _ _ brace.ended).mono ?_ (fun h => by omega)
    rintro ⟨body, rest⟩ ⟨w, -, hw⟩
    exact ⟨_, trivial, brace.trans hw⟩
  · refine (hs ts ended).map id ?_
    rintro ⟨s, rest⟩ ⟨w, -, hw⟩
    exact ⟨_, trivial, hw⟩

/-- An expression behind a token, up to the end of the statement. -/
theorem ended_spends (he : Spends n expression) {s : Expr → Stmt} {ts us : Tokens}
    {w : List Token} (hw : Spans ts w us) :
    Outcome (fun x => ∃ w, True ∧ Spans ts w x.2) (n < ts.length)
      (expression us >>= fun x => endStatement (s x.1) x.2) := by
  have longer := hw.length
  refine (he us hw.ended).bind (fun h => by omega) ?_
  rintro ⟨e, vs⟩ ⟨v, -, (hv : Spans us v vs)⟩
  refine (endStatement_outcome hv.ended).mono ?_ id
  rintro ⟨x, rest⟩ ⟨u, hu⟩
  exact ⟨_, trivial, hw.trans (hv.trans hu)⟩

/-- The other branch of a statement, if a keyword announces one. -/
theorem otherwise_spends (hs : Spends n statement) (c : Expr) (yes : List Stmt) {ts us : Tokens}
    {w : List Token} (hw : Spans ts w us) :
    Outcome (fun x : Option Stmt × Tokens => ∃ w, True ∧ Spans ts w x.2) (n + 1 < ts.length)
      (if peek us = .keyword .else then do
        let (no, vs) ← branchBody statement (advance us)
        .ok (some (.branch c yes (some no)), vs)
      else .ok (some (.branch c yes none), us)) := by
  have longer := hw.length
  split
  · have other := Spans.next hw.ended ‹_› (by simp)
    have further := other.length_token
    refine (branchBody_spends hs _ other.ended).bind (fun h => by omega) ?_
    rintro ⟨no, rest⟩ ⟨u, -, hn⟩
    exact ⟨_, trivial, hw.trans (other.trans hn)⟩
  · exact ⟨_, trivial, hw⟩

theorem statementForm_spends {m : Nat} (he : Spends n expression) (hs : Spends m statement)
    (hm : n ≤ m + 1) : Spends n (statementForm expression statement) := by
  intro ts ended
  unfold statementForm
  split
  case h_1 hp => exact ⟨_, trivial, Spans.sign ended hp⟩
  case h_2 hp =>
    have brace := Spans.sign ended hp
    have longer := brace.length_token
    refine (blockBody_spends hs _ _ brace.ended).bind (fun h => by omega) ?_
    rintro ⟨body, rest⟩ ⟨w, -, hw⟩
    exact ⟨_, trivial, brace.trans hw⟩
  case h_3 hp =>
    have step := Spans.next ended hp (by simp)
    have one := step.length_token
    refine (expect_outcome .leftParen step.ended).bind id ?_
    intro us hopen
    have two := hopen.length
    refine (he us hopen.ended).bind (fun h => by omega) ?_
    rintro ⟨c, us₁⟩ ⟨w, -, (hc : Spans us w us₁)⟩
    have three := hc.length
    refine (expect_outcome .rightParen hc.ended).bind id ?_
    intro us₂ hclose
    have four := hclose.length
    refine (branchBody_spends hs us₂ hclose.ended).bind (fun h => by omega) ?_
    rintro ⟨yes, us₃⟩ ⟨v, -, (hy : Spans us₂ v us₃)⟩
    have read := step.trans (hopen.trans (hc.trans (hclose.trans hy)))
    exact (otherwise_spends hs c yes read).mono (fun _ => id) fun h => by omega
  case h_4 hp =>
    have step := Spans.next ended hp (by simp)
    have closed {L : Prop} {s : Stmt} : Outcome (fun x => ∃ w, True ∧ Spans ts w x.2) L
        (endStatement s (advance ts)) := by
      refine (endStatement_outcome step.ended).mono ?_ id
      rintro ⟨x, rest⟩ ⟨u, hu⟩
      exact ⟨_, trivial, step.trans hu⟩
    split
    case h_4 => exact ended_spends he (s := fun e => .return (some e)) step
    all_goals exact closed
  case h_5 hp =>
    have step := Spans.next ended hp (by simp)
    have longer := step.length_token
    refine (identifier_outcome step.ended).bind id ?_
    rintro ⟨name, us⟩ (hn : Spans _ [.name name] us)
    refine (expect_outcome .assign hn.ended).bind id ?_
    intro vs hassign
    exact ended_spends he (step.trans (hn.trans hassign))
  case h_6 hp =>
    split
    · have step := Spans.next ended hp (by simp)
      have sign := Spans.sign step.ended ‹_›
      exact ended_spends he (step.trans sign)
    · exact ended_spends he (.refl ended)
  case h_7 => exact ended_spends he (.refl ended)

end Statements

theorem statement_spends (room : Nat) :
    Spends (min (room - 1) (chainLimit + 1)) (statement room) := by
  induction room with
  | zero => exact outOfRoom_reading _
  | succ room ih =>
    exact statementForm_spends (grammar_reading room chainLimit).1.spends ih (by omega)

/-- A body that meets a limit has as many tokens with the stop as there is room. -/
theorem statements_outcome (fuel : Nat) {ts : Tokens} (h : Ended ts) :
    Outcome (fun _ => True) (nestingLimit ≤ ts.length) (statements fuel ts) := by
  have least : min (nestingLimit - 1) (chainLimit + 1) = 63 := rfl
  have room : nestingLimit = 64 := rfl
  induction fuel generalizing ts with
  | zero =>
    unfold statements expectStop
    split
    · trivial
    · exact Outcome.unexpected _ _
  | succ fuel ih =>
    unfold statements
    split
    · trivial
    · refine (statement_spends nestingLimit ts h).bind (fun h => by omega) ?_
      rintro ⟨s, us⟩ ⟨w, -, (hw : Spans ts w us)⟩
      have longer := hw.length
      exact (ih hw.ended).bind (fun h => by omega) fun _ _ => trivial

end ScoreSheet.Rule
