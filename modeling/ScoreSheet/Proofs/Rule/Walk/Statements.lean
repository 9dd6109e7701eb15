import ScoreSheet.Proofs.Rule.Acceptance
import ScoreSheet.Proofs.Rule.Walk.Expressions
set_option autoImplicit false

namespace ScoreSheet.Rule

def statementAt (links : Nat) : Nat → Parse (Option Stmt)
  | 0 => outOfRoom
  | room + 1 => statementForm ((grammar room).expression links) (statementAt links room)

theorem statementAt_chainLimit (room : Nat) : statementAt chainLimit room = statement room := by
  induction room with
  | zero => rfl
  | succ room ih =>
    rw [statementAt, ih]
    rfl

namespace Walk

variable {ts : Tokens} {B : Bounds} {room links : Nat}

theorem Sound.endStatement_agrees {w w₁ : Walk} (h : Sound ts B w₁) (hs : Ended ts)
    (past : Past w w₁) (s : Stmt) :
    Agrees ts B (Past w) ((ts.endStatement >>= fun _ => pure (some s)) w₁)
      (Rule.endStatement s (w₁.rest ts)) := by
  unfold Tokens.endStatement Rule.endStatement
  rw [bind_assoc, h.look_bind]
  cases hp : peek (w₁.rest ts) with
  | stop => exact .pure h _ past
  | sign t =>
    cases t with
    | semicolon =>
      rw [← h.rest_advanced]
      exact .pure h.advanced _ (past.trans (h.past_advanced hs (by rw [hp]; simp)))
    | rightBrace => exact .pure h _ past
    | _ => exact h.unexpected_bind_agrees _ _
  | _ => exact h.unexpected_bind_agrees _ _

section Forms
variable {st : Parse (Option Stmt)} (hs : Ended ts)
  (hst : ReadsAt ts B room links ts.statement st)
include hs hst

theorem blockBody_agrees (fuel : Nat) (before : List Stmt) {w : Walk} (h : Sound ts B w)
    (hr : nestingLimit - w.now.depth = room) (hl : chainLimit - w.now.links = links)
    (hf : (w.rest ts).length ≤ fuel) :
    Agrees ts B (Past w) (ts.blockBody before w) (Rule.blockBody st fuel (w.rest ts) >>=
      fun x => .ok (before ++ x.1, x.2)) := by
  induction fuel generalizing before w with
  | zero => exact absurd hf (Nat.not_le.2 (ended_rest hs h.now.place).length_pos)
  | succ fuel ih =>
    rw [Tokens.blockBody, Rule.blockBody, h.look_bind]
    have more : Agrees ts B (Past w)
        ((ts.statement >>= fun s => ts.blockBody (before ++ s.toList)) w)
        ((st (w.rest ts) >>= fun x => Rule.blockBody st fuel x.2 >>= fun y =>
          .ok (x.1.toList ++ y.1, y.2)) >>= fun x => .ok (before ++ x.1, x.2)) := by
      rw [bind_assoc]
      refine (hst w h hr hl).bind fun s w₁ h₁ past₁ => ?_
      have shorter := Nat.lt_of_lt_of_le (past₁.shorter h) hf
      have later := ih (before ++ s.toList) h₁ (past₁.room hr) (past₁.left hl)
        (Nat.le_of_lt_succ shorter)
      simp only [List.append_assoc] at later
      dsimp only
      rw [bind_assoc]
      exact later.mono fun w₂ past₂ => past₁.trans past₂
    cases hp : peek (w.rest ts) with
    | stop => exact h.unexpected_agrees _
    | sign s =>
      cases s with
      | rightBrace =>
        change Agrees ts B (Past w) _ (.ok (before ++ [], Rule.advance (w.rest ts)))
        rw [List.append_nil, ← h.rest_advanced]
        exact .pure h.advanced before (h.past_advanced hs (by rw [hp]; simp))
      | _ => exact more
    | _ => exact more

theorem blockBody_reads {w : Walk} (h : Sound ts B w)
    (hr : nestingLimit - w.now.depth = room) (hl : chainLimit - w.now.links = links)
    {fuel : Nat} (hf : (w.rest ts).length ≤ fuel) :
    Agrees ts B (Past w) (ts.blockBody [] w) (Rule.blockBody st fuel (w.rest ts)) :=
  (blockBody_agrees hs hst fuel [] h hr hl hf).of_bind List.nil_append

theorem branchBody_reads :
    ReadsAt ts B room links ts.branchBody (Rule.branchBody st) := by
  intro w h hr hl
  rw [Tokens.branchBody, Rule.branchBody]
  refine h.eat_agrees hs (by simp) (fun _ h₁ past₁ => ?_) (fun _ => ?_)
  · rw [← h.rest_advanced]
    exact (blockBody_reads hs hst h₁ (past₁.room hr) (past₁.left hl)
      (Nat.le_of_lt (past₁.shorter h))).mono fun w₂ past₂ => past₁.trans past₂
  · exact (hst w h hr hl).map (fun _ _ => rfl) fun _ past₁ => past₁

theorem statementForm_reads {expr : Parse Expr}
    (he : ReadsAt ts B room links ts.expression expr) :
    ReadsAt ts B room links ts.statementForm (Rule.statementForm expr st) := by
  intro w h hr hl
  rw [Tokens.statementForm, h.look_bind]
  unfold Rule.statementForm
  have opens (ht : peek (w.rest ts) ≠ .stop) : Past w (w.advanced ts) :=
    h.past_advanced hs ht
  have form (f : Expr → Stmt) {w' : Walk} (h' : Sound ts B w')
      (hr' : nestingLimit - w'.now.depth = room) (hl' : chainLimit - w'.now.links = links)
      (hq : ∀ w'', Past w' w'' → Past w w'') :
      Agrees ts B (Past w) ((ts.expression >>= fun e => ts.endStatement >>= fun _ =>
          pure (some (f e))) w')
        (expr (w'.rest ts) >>= fun x => Rule.endStatement (f x.1) x.2) :=
    (he w' h' hr' hl').bind fun e w₁ h₁ past₁ => h₁.endStatement_agrees hs (hq _ past₁) (f e)
  cases hp : peek (w.rest ts) with
  | sign s =>
    cases s with
    | semicolon =>
      rw [← h.rest_advanced]
      exact .pure h.advanced none (opens (by rw [hp]; simp))
    | leftBrace =>
      have past₁ := opens (by rw [hp]; simp)
      dsimp only
      rw [advance_bind, ← h.rest_advanced]
      exact (blockBody_reads hs hst h.advanced (past₁.room hr) (past₁.left hl)
        (Nat.le_of_lt (past₁.shorter h))).bind fun body w₂ h₂ past₂ =>
          .pure h₂ (some (Stmt.block body)) (past₁.trans past₂)
    | _ => exact form .expr h hr hl fun _ past => past
  | keyword k =>
    cases k with
    | «if» =>
      have past₁ := opens (by rw [hp]; simp)
      dsimp only
      rw [advance_bind, ← h.rest_advanced]
      refine h.advanced.expect_agrees hs fun w₂ h₂ past₂ => ?_
      have past := past₁.trans past₂
      refine (he w₂ h₂ (past.room hr) (past.left hl)).bind fun condition w₃ h₃ past₃ => ?_
      refine h₃.expect_agrees hs fun w₄ h₄ past₄ => ?_
      have past := (past.trans past₃).trans past₄
      refine (branchBody_reads hs hst w₄ h₄ (past.room hr) (past.left hl)).bind
        fun yes w₅ h₅ past₅ => ?_
      have past := past.trans past₅
      refine h₅.eat_agrees hs (by simp) (fun _ h₆ past₆ => ?_) (fun _ =>
        .pure h₅ (some (Stmt.branch condition yes none)) past)
      have past := past.trans past₆
      rw [← h₅.rest_advanced]
      exact (branchBody_reads hs hst _ h₆ (past.room hr) (past.left hl)).bind
        fun no w₇ h₇ past₇ =>
          .pure h₇ (some (Stmt.branch condition yes (some no))) (past.trans past₇)
    | «return» =>
      have past₁ := opens (by rw [hp]; simp)
      dsimp only
      rw [advance_bind, ← h.rest_advanced, h.advanced.look_bind]
      have bare := h.advanced.endStatement_agrees hs past₁ (.return none)
      have some := form (.return ∘ some) h.advanced (past₁.room hr) (past₁.left hl)
        fun _ => past₁.trans
      cases peek ((w.advanced ts).rest ts) with
      | stop => exact bare
      | sign s =>
        cases s with
        | semicolon => exact bare
        | rightBrace => exact bare
        | _ => exact some
      | _ => exact some
    | «let» =>
      have past₁ := opens (by rw [hp]; simp)
      dsimp only
      rw [advance_bind, ← h.rest_advanced]
      refine (h.advanced.identifier_agrees hs).bind fun name w₂ h₂ past₂ => ?_
      refine h₂.expect_agrees hs fun w₃ h₃ past₃ => ?_
      have past := (past₁.trans past₂).trans past₃
      exact form (.declare name) h₃ (past.room hr) (past.left hl) fun _ => past.trans
    | _ => exact form .expr h hr hl fun _ past => past
  | name n =>
    have past₁ := opens (by rw [hp]; simp)
    dsimp only
    rw [h.lookBehind_bind, ← h.rest_advanced]
    split
    · rename_i assigned
      have past := past₁.trans (h.advanced.past_advanced hs (by rw [assigned]; simp))
      rw [advance_bind, advance_bind, ← h.advanced.rest_advanced]
      exact form (.assign n) h.advanced.advanced (past.room hr) (past.left hl)
        fun _ => past.trans
    · exact form .expr h hr hl fun _ past => past
  | _ => exact form .expr h hr hl fun _ past => past

end Forms

/-- Walks over statements, by induction on the room that is left. -/
theorem statement_reads (hs : Ended ts) (links room : Nat) :
    ReadsAt ts B room links ts.statement (statementAt links room) := by
  have unfolded : ts.statement = nested ts ts.statementForm := by rw [Tokens.statement, nested]
  rw [unfolded]
  induction room with
  | zero => exact nested_fails _ links
  | succ room ih =>
    rw [← unfolded] at ih
    exact (statementForm_reads hs ih ((grammar_reads hs room).1 links)).nested

/-- The walk ends with the result or with the error, which stands at a token. -/
def Concludes {α : Type} (ts : Tokens) (run : Option (Except SyntaxError (α × Walk))) :
    Except SyntaxError α → Prop
  | .ok x => ∃ w, run = some (.ok (x, w))
  | .error e => run = some (.error e) ∧ ∃ t ∈ ts, e.position = t.position

section Concludes
variable {α β : Type} {Q : Walk → Prop} {w : Walk}

theorem Concludes.pure (x : α) : Concludes ts ((Pure.pure x : Walking α) w) (.ok x) := ⟨w, rfl⟩

theorem Agrees.concludes {m : Walking α} {k : α → Walking β}
    {r : Except SyntaxError (α × Tokens)} {q : α × Tokens → Except SyntaxError β}
    (hm : Agrees ts B Q (m w) r)
    (hk : ∀ x w', Sound ts B w' → Q w' → Concludes ts (k x w') (q (x, w'.rest ts))) :
    Concludes ts ((m >>= k) w) (r >>= q) := by
  cases r with
  | error e => exact ⟨bind_of_error hm.1, hm.2⟩
  | ok x =>
    obtain ⟨x, us⟩ := x
    obtain ⟨w', run, rfl, sound, hq⟩ := hm
    rw [bind_of_ok run]
    exact hk x w' sound hq

theorem Sound.expectStop_concludes (h : Sound ts B w) (x : α) :
    Concludes ts ((ts.expectStop >>= fun _ => Pure.pure x) w)
      (Rule.expectStop x (w.rest ts)) := by
  unfold Tokens.expectStop Rule.expectStop
  rw [bind_assoc, h.look_bind]
  split
  · exact .pure x
  · exact h.unexpected_bind_agrees (α := α) (Q := fun _ => True) .stop _

end Concludes

def Bounds.limits : Bounds := ⟨nestingLimit, chainLimit, Nat.le_refl _, Nat.le_refl _⟩

theorem start_sound (hs : Ended ts) : Sound ts .limits start :=
  ⟨⟨hs.length_pos, Nat.zero_le _, Nat.zero_le _⟩, fun _ h => absurd h List.not_mem_nil⟩

structure Free (w : Walk) : Prop where
  depth : w.now.depth = 0
  links : w.now.links = 0

theorem Past.free {w w' : Walk} (h : Past w w') (free : Free w) : Free w' :=
  ⟨h.depth.trans free.depth, h.links.trans free.links⟩

theorem Free.expression_reads {w : Walk} (free : Free w) (hs : Ended ts) (h : Sound ts B w) :
    Agrees ts B (Past w) (ts.expression w) (Rule.expression nestingLimit (w.rest ts)) :=
  (grammar_reads hs nestingLimit).1 chainLimit w h (by rw [free.depth, Nat.sub_zero])
    (by rw [free.links, Nat.sub_zero])

theorem Free.statement_reads {w : Walk} (free : Free w) (hs : Ended ts) (h : Sound ts B w) :
    Agrees ts B (Past w) (ts.statement w) (Rule.statement nestingLimit (w.rest ts)) := by
  rw [← statementAt_chainLimit]
  exact Walk.statement_reads hs chainLimit nestingLimit w h (by rw [free.depth, Nat.sub_zero])
    (by rw [free.links, Nat.sub_zero])

theorem skipSemicolons_ended {us : Tokens} (h : Ended us) : Rule.skipSemicolons us =
    if peek us = .sign .semicolon then Rule.skipSemicolons (Rule.advance us) else us := by
  cases h with
  | @stop t ht =>
    have other : peek [t] ≠ .sign .semicolon := by
      intro (hp : t.token = .sign .semicolon)
      rw [ht] at hp
      cases hp
    rw [if_neg other]
    rfl
  | @more t us _ h =>
    obtain ⟨u, vs, rfl⟩ := List.exists_cons_of_ne_nil h.ne_nil
    rfl

theorem Free.skipSemicolons_agrees {w : Walk} (free : Free w) (hs : Ended ts)
    (h : Sound ts B w) : Agrees ts B Free (ts.skipSemicolons w)
      (.ok ((), Rule.skipSemicolons (w.rest ts))) := by
  induction hn : (w.rest ts).length using Nat.strongRecOn generalizing w with
  | ind n ih =>
    rw [Tokens.skipSemicolons, skipSemicolons_ended (ended_rest hs h.now.place), h.eat_bind]
    split
    · rename_i hp
      have past := h.past_advanced hs (by rw [hp]; simp)
      rw [← h.rest_advanced]
      exact ih _ (hn ▸ past.shorter h) (past.free free) h.advanced rfl
    · exact .pure h () free

theorem rule_concludes (hs : Ended ts) : Concludes ts (ts.rule start) (ruleOf ts) := by
  have sound := start_sound hs
  have front := Free.skipSemicolons_agrees (w := start) ⟨rfl, rfl⟩ hs sound
  refine front.concludes (q := fun x => if peek x.2 = .stop then .ok none else
    Rule.expression nestingLimit x.2 >>= fun y => Rule.expectStop (some y.1)
      (Rule.skipSemicolons y.2)) fun _ w₁ h₁ free₁ => ?_
  rw [h₁.look_bind]
  dsimp only
  split
  · exact .pure none
  · refine (free₁.expression_reads hs h₁).concludes fun e w₂ h₂ past₂ => ?_
    exact ((past₂.free free₁).skipSemicolons_agrees hs h₂).concludes
      (q := fun x => Rule.expectStop (some e) x.2) fun _ w₃ h₃ _ => h₃.expectStop_concludes _

theorem statements_concludes (hs : Ended ts) (fuel : Nat) (before : List Stmt) {w : Walk}
    (h : Sound ts B w) (free : Free w) (hf : (w.rest ts).length ≤ fuel) :
    Concludes ts (ts.statements before w)
      (Rule.statements fuel (w.rest ts) >>= fun body => .ok (before ++ body)) := by
  induction fuel generalizing before w with
  | zero => exact absurd hf (Nat.not_le.2 (ended_rest hs h.now.place).length_pos)
  | succ fuel ih =>
    rw [Tokens.statements, Rule.statements, h.look_bind]
    split
    · change Concludes ts _ (.ok (before ++ []))
      rw [List.append_nil]
      exact .pure before
    · rw [bind_assoc]
      refine (free.statement_reads hs h).concludes fun s w₁ h₁ past₁ => ?_
      have shorter := Nat.lt_of_lt_of_le (past₁.shorter h) hf
      have later := ih (before ++ s.toList) h₁ (past₁.free free) (Nat.le_of_lt_succ shorter)
      simp only [List.append_assoc] at later
      dsimp only
      rw [bind_assoc]
      exact later

def behindNames (before : List String) (p : Parameters) : Parameters :=
  ⟨before ++ p.names, p.rest⟩

theorem Sound.parameters_end {w : Walk} (h : Sound ts B w) (before : List String)
    (p : Parameters) :
    Concludes ts ((ts.expectStop >>= fun _ => pure (behindNames before p)) w)
      (Rule.expectStop p (w.rest ts) >>= fun p => .ok (behindNames before p)) := by
  have closed := h.expectStop_concludes (behindNames before p)
  unfold Rule.expectStop at closed ⊢
  by_cases hp : peek (w.rest ts) = .stop
  · rw [if_pos hp] at closed ⊢
    exact closed
  · rw [if_neg hp] at closed ⊢
    exact closed

theorem parameters_concludes (hs : Ended ts) (fuel : Nat) (before : List String) {w : Walk}
    (h : Sound ts B w) (hf : (w.rest ts).length ≤ fuel) :
    Concludes ts (ts.parameters before w)
      (Rule.parameters fuel (w.rest ts) >>= fun p => .ok (behindNames before p)) := by
  induction fuel generalizing before w with
  | zero => exact absurd hf (Nat.not_le.2 (ended_rest hs h.now.place).length_pos)
  | succ fuel ih =>
    rw [Tokens.parameters, Rule.parameters, h.look_bind]
    split
    · change Concludes ts _ (.ok (behindNames before ⟨[], none⟩))
      rw [behindNames, List.append_nil]
      exact .pure _
    rw [h.eat_bind]
    split
    · rw [← h.rest_advanced, bind_assoc]
      refine (h.advanced.identifier_agrees hs).concludes fun name w₁ h₁ _ => ?_
      have last {w' : Walk} (h' : Sound ts B w') := h'.parameters_end before ⟨[], some name⟩
      simp only [behindNames, List.append_nil] at last
      rw [h₁.eat_bind]
      dsimp only
      split
      · rw [← h₁.rest_advanced]
        exact last h₁.advanced
      · exact last h₁
    · rw [bind_assoc]
      refine (h.identifier_agrees hs).concludes fun name w₁ h₁ past₁ => ?_
      dsimp only
      rw [h₁.eat_bind]
      split
      · rename_i comma
        have past := past₁.trans (h₁.past_advanced hs (by rw [comma]; simp))
        have shorter := Nat.lt_of_lt_of_le (past.shorter h) hf
        have later := ih (before ++ [name]) h₁.advanced (Nat.le_of_lt_succ shorter)
        simp only [behindNames, List.append_assoc] at later
        rw [← h₁.rest_advanced, bind_assoc]
        exact later
      · exact h₁.parameters_end before ⟨[name], none⟩

theorem Concludes.of_bind {α : Type} {run : Option (Except SyntaxError (α × Walk))}
    {r : Except SyntaxError α} {f : α → α} (h : Concludes ts run (r >>= fun x => .ok (f x)))
    (hf : ∀ x, f x = x) : Concludes ts run r := by
  cases r with
  | error e => exact h
  | ok x =>
    change Concludes ts run (.ok (f x)) at h
    rw [hf] at h
    exact h

theorem body_concludes (hs : Ended ts) :
    Concludes ts (ts.statements [] start) (Rule.statements ts.length ts) :=
  (statements_concludes hs _ [] (start_sound hs) ⟨rfl, rfl⟩ (Nat.le_refl _)).of_bind
    List.nil_append

theorem parameterList_concludes (hs : Ended ts) :
    Concludes ts (ts.parameters [] start) (Rule.parameters ts.length ts) :=
  (parameters_concludes hs _ [] (start_sound hs) (Nat.le_refl _)).of_bind fun _ => rfl

section Parse
variable {α : Type} {walking : Tokens → Walking α} {read : Tokens → Except SyntaxError α}
  (h : ∀ ts, Ended ts → Concludes ts (walking ts start) (read ts))
include h

theorem parse_eq (text : String) : parse walking text = some (tokenize text >>= read) := by
  unfold parse
  cases ht : tokenize text with
  | error e => rfl
  | ok ts =>
    have concluded := h ts (tokenize_ended ht)
    change Option.map (Except.map Prod.fst) (walking ts start) = some (read ts)
    cases hr : read ts <;> rw [hr] at concluded
    · rw [concluded.1]
      rfl
    · obtain ⟨w, run⟩ := concluded
      rw [run]
      rfl

/-- What the parser complains about is a token, or was no token in the first place. -/
theorem error_at_token {text : String} {e : SyntaxError}
    (he : (tokenize text >>= read) = .error e) :
    tokenize text = .error e ∨
      ∃ ts, tokenize text = .ok ts ∧ ∃ t ∈ ts, e.position = t.position := by
  refine (bind_error he).imp_right fun ⟨ts, ht, hr⟩ => ⟨ts, ht, ?_⟩
  have concluded := h ts (tokenize_ended ht)
  rw [hr] at concluded
  exact concluded.2

end Parse

theorem parse_rule (text : String) : parse Tokens.rule text = some (parseRule text) :=
  parse_eq (fun _ => rule_concludes) text

theorem parse_body (text : String) : parse (Tokens.statements · []) text = some (parseBody text) :=
  parse_eq (fun _ => body_concludes) text

theorem parse_parameters (text : String) :
    parse (Tokens.parameters · []) text = some (parseParameters text) :=
  parse_eq (fun _ => parameterList_concludes) text

end Walk

end ScoreSheet.Rule
