import ScoreSheet.Proofs.Rule.Separated
import ScoreSheet.Proofs.Rule.Walk.Steps
set_option autoImplicit false

/-! From every state inside the tokens, a walk over an expression agrees with its reading. The
room is what the induction is on: the counter of a walk stays below the limit as long as
there is room left, and each nested part takes some. -/
namespace ScoreSheet.Rule.Walk

variable {ts : Tokens} {B : Bounds} {room : Nat}

section Separated
variable {α β : Type} {links : Nat}

/-- A walk adds what it reads to what it has read before, where a reading adds it to what
comes later. `merge` puts the two sides together. -/
theorem separated_agrees (hs : Ended ts) {close : Sign} {m : Walking α} {read : Parse α}
    {loop : β → Walking β} {push : β → α → β} {add : α → β → β} {none : β} {merge : β → β → β}
    (hloop : ∀ before, loop before = do
      if ← ts.eat (.sign close) then return before
      else
        let next ← m
        if ← ts.eat (.sign .comma) then loop (push before next)
        else
          ts.expect close
          return push before next)
    (hm : ReadsAt ts B room links m read) (merge_none : ∀ before, merge before none = before)
    (merge_add : ∀ before x later, merge (push before x) later = merge before (add x later))
    (fuel : Nat) (before : β) {w : Walk} (h : Sound ts B w)
    (hr : nestingLimit - w.now.depth = room) (hl : chainLimit - w.now.links = links)
    (hf : (w.rest ts).length ≤ fuel) :
    Agrees ts B (Past w) (loop before w) (separated read add none close fuel (w.rest ts) >>=
      fun x => .ok (merge before x.1, x.2)) := by
  induction fuel generalizing before w with
  | zero => exact absurd hf (Nat.not_le.2 (ended_rest hs h.now.place).length_pos)
  | succ fuel ih =>
    rw [hloop, separated, h.eat_bind]
    split
    · rename_i hp
      have closed := Agrees.pure h.advanced before (h.past_advanced hs (by rw [hp]; simp))
      rw [h.rest_advanced] at closed
      change Agrees ts B (Past w) _ (.ok (merge before none, Rule.advance (w.rest ts)))
      rw [merge_none]
      exact closed
    · rw [bind_assoc]
      refine (hm w h hr hl).bind fun x w₁ h₁ past₁ => ?_
      dsimp only
      rw [h₁.eat_bind]
      split
      · rename_i hp
        have comma := h₁.past_advanced hs (by rw [hp]; simp)
        have past := past₁.trans comma
        have shorter := Nat.lt_of_lt_of_le (past.shorter h) hf
        have later := ih (push before x) h₁.advanced (past.room hr) (past.left hl)
          (Nat.le_of_lt_succ shorter)
        rw [← h₁.rest_advanced, bind_assoc]
        simp only [merge_add] at later
        exact later.mono fun w' past' => past.trans past'
      · rw [bind_assoc]
        refine h₁.expect_agrees hs fun w₂ h₂ past₂ => ?_
        have closed := Agrees.pure h₂ (push before x) (past₁.trans past₂)
        change Agrees ts B (Past w) _ (.ok (merge before (add x none), w₂.rest ts))
        rw [← merge_add, merge_none]
        exact closed

end Separated

def setProperties (before later : List (String × Expr)) : List (String × Expr) :=
  before.filter (fun f => !later.any (·.1 == f.1)) ++ later

theorem setProperties_nil (before : List (String × Expr)) : setProperties before [] = before := by
  unfold setProperties
  rw [List.append_nil]
  exact List.filter_eq_self.2 fun _ _ => rfl

theorem setProperties_setProperty (before : List (String × Expr)) (f : String × Expr)
    (later : List (String × Expr)) :
    setProperties (setProperty before f) later =
      setProperties before (withProperty f.1 f.2 later) := by
  unfold setProperties setProperty withProperty
  rw [List.filter_append, List.filter_filter, List.append_assoc]
  by_cases named : later.any (·.1 == f.1) = true
  · -- The later one replaces what the property itself would have replaced.
    have same : ∀ g ∈ before, (!later.any (·.1 == g.1) && decide (g.1 ≠ f.1)) =
        !later.any (·.1 == g.1) := by
      intro g _
      by_cases hg : g.1 = f.1
      · rw [hg, named]
        rfl
      · rw [decide_eq_true hg, Bool.and_true]
    rw [if_pos named, List.filter_congr same, List.filter_cons, named]
    rfl
  · have split : ∀ g ∈ before, (!later.any (·.1 == g.1) && decide (g.1 ≠ f.1)) =
        !((f.1, f.2) :: later).any (·.1 == g.1) := by
      intro g _
      rw [List.any_cons, Bool.not_or, Bool.and_comm]
      by_cases hg : g.1 = f.1
      · simp [hg]
      · simp [hg, Ne.symm hg]
    rw [if_neg named, List.filter_congr split, List.filter_cons,
      Bool.eq_false_iff.2 named]
    rfl

section Brackets
variable {links : Nat} {expr : Parse Expr} (hs : Ended ts)
  (he : ReadsAt ts B room links ts.expression expr)
include hs he

theorem item_reads : ReadsAt ts B room links ts.item (readItem expr) := by
  intro w h hr hl
  unfold Tokens.item readItem
  refine h.eat_agrees hs (by simp) (fun _ h₁ past₁ => ?_) (fun _ => ?_)
  · rw [← h.rest_advanced]
    exact (he _ h₁ (past₁.room hr) (past₁.left hl)).map (fun _ _ => rfl)
      fun _ past₂ => past₁.trans past₂
  · exact (he w h hr hl).map (fun _ _ => rfl) fun _ past₁ => past₁

theorem property_reads : ReadsAt ts B room links ts.property (readProperty expr) := by
  intro w h hr hl
  unfold Tokens.property readProperty
  refine (h.propertyName_agrees hs).bind fun x w₁ h₁ past₁ => ?_
  obtain ⟨name, alone⟩ := x
  refine h₁.eat_agrees hs (by simp) (fun _ h₂ past₂ => ?_) (fun _ => ?_)
  · have past := past₁.trans past₂
    rw [← h₁.rest_advanced]
    exact (he _ h₂ (past.room hr) (past.left hl)).map (fun _ _ => rfl)
      fun _ past₃ => past.trans past₃
  · cases alone with
    | true => exact .pure h₁ _ past₁
    | false => exact h₁.unexpected_agrees _

theorem items_agrees (close : Sign) (before : List (Item Expr)) {w : Walk} (h : Sound ts B w)
    (hr : nestingLimit - w.now.depth = room) (hl : chainLimit - w.now.links = links)
    {fuel : Nat} (hf : (w.rest ts).length ≤ fuel) :
    Agrees ts B (Past w) (ts.items close before w)
      (Rule.items expr close fuel (w.rest ts) >>= fun x => .ok (before ++ x.1, x.2)) := by
  rw [items_eq_separated]
  exact separated_agrees hs (fun before => by rw [Tokens.items]) (item_reads hs he) List.append_nil
    (fun before x later => List.append_assoc before [x] later) fuel before h hr hl hf

theorem properties_agrees (before : List (String × Expr)) {w : Walk} (h : Sound ts B w)
    (hr : nestingLimit - w.now.depth = room) (hl : chainLimit - w.now.links = links)
    {fuel : Nat} (hf : (w.rest ts).length ≤ fuel) :
    Agrees ts B (Past w) (ts.properties before w)
      (Rule.properties expr fuel (w.rest ts) >>= fun x =>
        .ok (setProperties before x.1, x.2)) := by
  rw [properties_eq_separated]
  exact separated_agrees hs (fun before => by rw [Tokens.properties]) (property_reads hs he)
    setProperties_nil setProperties_setProperty fuel before h hr hl hf

theorem items_reads {close : Sign} {w : Walk} (h : Sound ts B w)
    (hr : nestingLimit - w.now.depth = room) (hl : chainLimit - w.now.links = links)
    {fuel : Nat} (hf : (w.rest ts).length ≤ fuel) :
    Agrees ts B (Past w) (ts.items close [] w) (Rule.items expr close fuel (w.rest ts)) :=
  (items_agrees hs he close [] h hr hl hf).of_bind List.nil_append

theorem properties_reads {w : Walk} (h : Sound ts B w)
    (hr : nestingLimit - w.now.depth = room) (hl : chainLimit - w.now.links = links)
    {fuel : Nat} (hf : (w.rest ts).length ≤ fuel) :
    Agrees ts B (Past w) (ts.properties [] w) (Rule.properties expr fuel (w.rest ts)) :=
  (properties_agrees hs he [] h hr hl hf).of_bind List.nil_append

theorem primary_reads : ReadsAt ts B room links ts.primary (Rule.primary expr) := by
  intro w h hr hl
  unfold Tokens.primary Rule.primary
  rw [h.look_bind]
  have opens (ht : peek (w.rest ts) ≠ .stop) : Past w (w.advanced ts) :=
    h.past_advanced hs ht
  have literal (ht : peek (w.rest ts) ≠ .stop) (v : Value) :
      Agrees ts B (Past w) ((ts.advance >>= fun _ => pure (.literal v) : Walking Expr) w)
        (.ok (.literal v, Rule.advance (w.rest ts))) := by
    rw [← h.rest_advanced]
    exact .pure h.advanced _ (opens ht)
  cases hp : peek (w.rest ts) with
  | stop => exact h.unexpected_agrees _
  | number x => exact literal (by rw [hp]; simp) _
  | string s => exact literal (by rw [hp]; simp) _
  | keyword k =>
    cases k with
    | true => exact literal (by rw [hp]; simp) _
    | false => exact literal (by rw [hp]; simp) _
    | null => exact literal (by rw [hp]; simp) _
    | undefined => exact literal (by rw [hp]; simp) _
    | _ => exact h.unexpected_agrees _
  | name n =>
    have past₁ := opens (by rw [hp]; simp)
    dsimp only
    rw [advance_bind, ← h.rest_advanced]
    refine h.advanced.eat_agrees hs (by simp) (fun _ h₂ past₂ => ?_) (fun _ => ?_)
    · have past := past₁.trans past₂
      rw [← h.advanced.rest_advanced]
      exact (items_reads hs he h₂ (past.room hr) (past.left hl)
        (Nat.le_of_lt (past.shorter h))).bind fun arguments w₃ h₃ past₃ =>
          .pure h₃ (Expr.call n arguments) (past.trans past₃)
    · exact .pure h.advanced _ past₁
  | sign s =>
    cases s with
    | leftParen =>
      have past₁ := opens (by rw [hp]; simp)
      dsimp only
      rw [advance_bind, ← h.rest_advanced]
      refine (he _ h.advanced (past₁.room hr) (past₁.left hl)).bind fun e w₂ h₂ past₂ => ?_
      exact h₂.expect_agrees hs fun w₃ h₃ past₃ =>
        .pure h₃ e ((past₁.trans past₂).trans past₃)
    | leftBracket =>
      have past₁ := opens (by rw [hp]; simp)
      dsimp only
      rw [advance_bind, ← h.rest_advanced]
      exact (items_reads hs he h.advanced (past₁.room hr) (past₁.left hl)
        (Nat.le_of_lt (past₁.shorter h))).bind fun elements w₂ h₂ past₂ =>
          .pure h₂ (Expr.array elements) (past₁.trans past₂)
    | leftBrace =>
      have past₁ := opens (by rw [hp]; simp)
      dsimp only
      rw [advance_bind, ← h.rest_advanced]
      exact (properties_reads hs he h.advanced (past₁.room hr) (past₁.left hl)
        (Nat.le_of_lt (past₁.shorter h))).bind fun fields w₂ h₂ past₂ =>
          .pure h₂ (Expr.object fields) (past₁.trans past₂)
    | _ => exact h.unexpected_agrees _

end Brackets

section Chains
variable {parse : Nat → Parse Expr}

/-- The links of a chain count while it is read and are given back behind it. -/
theorem restored_agrees {m : Walking Expr} {r : Except SyntaxError (Expr × Tokens)}
    {w w₁ : Walk} (h : Sound ts B w₁) (past : Past w w₁) (hm : Agrees ts B (Along w₁) (m w₁) r) :
    Agrees ts B (Past w) ((linkCount >>= fun mark => m >>= fun e =>
      restoreLinks mark >>= fun _ => pure e) w₁) r := by
  change Agrees ts B (Past w) ((m >>= fun e =>
    restoreLinks w₁.now.links >>= fun _ => pure e) w₁) r
  exact hm.followed fun e w₂ h₂ along => .pure (h₂.relinked h.now.links) e
    ⟨Nat.lt_of_lt_of_le past.place along.place, along.depth.trans past.depth, past.links⟩

theorem Sound.past_operator {w : Walk} (h : Sound ts B w) (hs : Ended ts) {level : Level}
    {join : Expr → Expr → Expr} (ho : level.operationAt? (w.rest ts) = some join) :
    Past w (w.advanced ts) := by
  refine h.past_advanced hs fun hp => ?_
  rw [Level.operationAt?, hp] at ho
  cases ho

theorem Past.linked {w w' : Walk} (h : Past w w') : Along w w'.linked :=
  ⟨Nat.le_of_lt h.place, h.depth⟩

theorem chain_agrees (hs : Ended ts) {level : Level} {levels : List Level}
    (hop : Reads ts B room (ts.operations levels) parse) (links : Nat) (e : Expr) {w : Walk}
    (h : Sound ts B w) (hr : nestingLimit - w.now.depth = room)
    (hl : chainLimit - w.now.links = links) :
    Agrees ts B (Along w) (ts.chain level levels e w)
      (Rule.chain level parse links e (w.rest ts)) := by
  induction links generalizing e w with
  | zero =>
    unfold Tokens.chain Rule.chain
    rw [h.operator_bind]
    cases ho : level.operationAt? (w.rest ts) with
    | none => exact .pure h e (.refl w)
    | some join =>
      dsimp only
      rw [advance_bind, ← h.rest_advanced]
      exact h.advanced.link_fails ((h.past_operator hs ho).left hl) _
  | succ links ih =>
    unfold Tokens.chain Rule.chain
    rw [h.operator_bind]
    cases ho : level.operationAt? (w.rest ts) with
    | none => exact .pure h e (.refl w)
    | some join =>
      have past₁ := h.past_operator hs ho
      dsimp only
      rw [advance_bind, ← h.rest_advanced]
      refine h.advanced.link_takes (past₁.left hl) fun h₁ fewer => ?_
      refine (hop links _ h₁ (past₁.room hr) fewer).bind fun right w₂ h₂ past₂ => ?_
      have along := past₁.linked.trans past₂.along
      exact (ih (join e right) h₂ (past₂.room (past₁.room hr)) (past₂.left fewer)).mono
        fun w₃ along₃ => along.trans along₃

theorem operations_reads (hs : Ended ts) (hop : Reads ts B room ts.operand parse)
    (levels : List Level) :
    Reads ts B room (ts.operations levels) (Rule.operations parse levels) := by
  induction levels with
  | nil =>
    intro links w h hr hl
    rw [Tokens.operations, Rule.operations]
    exact hop links w h hr hl
  | cons level levels ih =>
    intro links w h hr hl
    rw [Tokens.operations, Rule.operations]
    exact (ih links w h hr hl).bind fun e w₁ h₁ past₁ =>
      restored_agrees h₁ past₁ (chain_agrees hs ih links e h₁ (past₁.room hr) (past₁.left hl))

theorem selectors_agrees (hs : Ended ts) (he : Reads ts B room ts.expression parse)
    (links : Nat) (e : Expr) {w : Walk} (h : Sound ts B w)
    (hr : nestingLimit - w.now.depth = room) (hl : chainLimit - w.now.links = links) :
    Agrees ts B (Along w) (ts.selectors e w)
      (Rule.selectors parse links e (w.rest ts)) := by
  induction links using Nat.strongRecOn generalizing e w with
  | ind links ih =>
  by_cases dot : peek (w.rest ts) = .sign .dot
  · have past₁ : Past w (w.advanced ts) := h.past_advanced hs (by rw [dot]; simp)
    rw [Tokens.selectors, h.look_bind, dot]
    dsimp only
    rw [advance_bind]
    cases links with
    | zero =>
      rw [Rule.selectors, if_pos (.inl dot), ← h.rest_advanced]
      exact h.advanced.link_fails (past₁.left hl) _
    | succ links =>
      rw [Rule.selectors, if_pos dot, ← h.rest_advanced]
      refine h.advanced.link_takes (past₁.left hl) fun h₁ fewer => ?_
      refine (h₁.identifier_agrees hs).bind fun property w₂ h₂ past₂ => ?_
      have along := past₁.linked.trans past₂.along
      rw [h₂.look_bind]
      dsimp only
      split
      · exact fail_agrees h₂.now.place _
      · exact (ih links (Nat.lt_succ_self _) (.member e property) h₂
          (past₂.room (past₁.room hr)) (past₂.left fewer)).mono
          fun w₃ along₃ => along.trans along₃
  by_cases bracket : peek (w.rest ts) = .sign .leftBracket
  · have past₁ : Past w (w.advanced ts) := h.past_advanced hs (by rw [bracket]; simp)
    rw [Tokens.selectors, h.look_bind, bracket]
    dsimp only
    rw [advance_bind]
    cases links with
    | zero =>
      rw [Rule.selectors, if_pos (.inr bracket), ← h.rest_advanced]
      exact h.advanced.link_fails (past₁.left hl) _
    | succ links =>
      rw [Rule.selectors, if_neg dot, if_pos bracket, ← h.rest_advanced]
      refine h.advanced.link_takes (past₁.left hl) fun h₁ fewer => ?_
      refine (he links _ h₁ (past₁.room hr) fewer).bind fun property w₂ h₂ past₂ => ?_
      refine h₂.expect_agrees hs fun w₃ h₃ past₃ => ?_
      have past := past₂.trans past₃
      have along := past₁.linked.trans past.along
      exact (ih links (Nat.lt_succ_self _) (.index e property) h₃
        (past.room (past₁.room hr)) (past.left fewer)).mono
        fun w₄ along₄ => along.trans along₄
  by_cases paren : peek (w.rest ts) = .sign .leftParen
  · rw [Tokens.selectors, h.look_bind, paren]
    cases links with
    | zero =>
      rw [Rule.selectors, if_neg (not_or.2 ⟨dot, bracket⟩), if_pos paren]
      exact fail_agrees h.now.place _
    | succ links =>
      rw [Rule.selectors, if_neg dot, if_neg bracket, if_pos paren]
      exact fail_agrees h.now.place _
  · have ends : Ends [] (w.rest ts) :=
      ⟨(ended_rest hs h.now.place).ne_nil, dot, bracket, paren, by simp⟩
    rw [Tokens.selectors, h.look_bind, selectors_stop ends]
    cases hp : peek (w.rest ts) with
    | sign s =>
      cases s with
      | dot => exact absurd hp dot
      | leftBracket => exact absurd hp bracket
      | leftParen => exact absurd hp paren
      | _ => exact .pure h e (.refl w)
    | _ => exact .pure h e (.refl w)

theorem selected_reads (hs : Ended ts) (he : Reads ts B room ts.expression parse) :
    Reads ts B room ts.selected fun links us =>
      Rule.primary (parse links) us >>= fun x => Rule.selectors parse links x.1 x.2 := by
  intro links w h hr hl
  rw [Tokens.selected]
  exact (primary_reads hs (he links) w h hr hl).bind fun e w₁ h₁ past₁ =>
    restored_agrees h₁ past₁
      (selectors_agrees hs he links e h₁ (past₁.room hr) (past₁.left hl))

end Chains

section Nested
variable (hs : Ended ts)
include hs

theorem operand_reads {parse deeper : Nat → Parse Expr}
    (he : Reads ts B room ts.expression parse)
    (hd : Reads ts B room (nested ts ts.operand) deeper) :
    Reads ts B room ts.operand (Rule.operand deeper parse) := by
  intro links w h hr hl
  rw [Tokens.operand, h.look_bind]
  unfold Rule.operand
  cases ho : prefixOperator? (peek (w.rest ts)) with
  | none => exact selected_reads hs he links w h hr hl
  | some op =>
    have past₁ : Past w (w.advanced ts) := h.past_advanced hs fun hp => by
      rw [hp] at ho
      cases ho
    have deeper := (hd links _ h.advanced (past₁.room hr) (past₁.left hl)).bind
      (k := fun e => pure (Expr.unary op e)) (q := fun x => .ok (Expr.unary op x.1, x.2))
      fun e w₂ h₂ past₂ => .pure h₂ (Expr.unary op e) (past₁.trans past₂)
    simp only [nested, bind_assoc, pure_bind] at deeper
    rw [h.rest_advanced] at deeper
    exact deeper

theorem conditional_reads {parse further : Nat → Parse Expr}
    (ho : Reads ts B room ts.operand further)
    (he : Reads ts B room ts.expression parse) :
    Reads ts B room ts.conditional (Rule.conditional further parse) := by
  intro links w h hr hl
  rw [Tokens.conditional]
  unfold Rule.conditional
  refine (operations_reads hs ho Level.all links w h hr hl).bind fun e w₁ h₁ past₁ => ?_
  refine h₁.eat_agrees hs (by simp) (fun _ h₂ past₂ => ?_) (fun _ => .pure h₁ e past₁)
  have past := past₁.trans past₂
  rw [← h₁.rest_advanced]
  refine (he links _ h₂ (past.room hr) (past.left hl)).bind fun yes w₃ h₃ past₃ => ?_
  refine h₃.expect_agrees hs fun w₄ h₄ past₄ => ?_
  have past' := (past.trans past₃).trans past₄
  exact (he links _ h₄ (past'.room hr) (past'.left hl)).bind fun no w₅ h₅ past₅ =>
    .pure h₅ (Expr.conditional e yes no) (past'.trans past₅)

/-- Walks over expressions and over operands, by induction on the room that is left. -/
theorem grammar_reads (room : Nat) :
    Reads ts B room ts.expression (grammar room).expression ∧
      Reads ts B room ts.operand (grammar room).operand := by
  have unfolded : ts.expression = nested ts ts.conditional := by rw [Tokens.expression, nested]
  induction room with
  | zero =>
    have expression : Reads ts B 0 ts.expression (grammar 0).expression := by
      intro links
      rw [unfolded]
      exact nested_fails _ links
    exact ⟨expression, operand_reads hs expression (nested_fails _)⟩
  | succ room ih =>
    have expression : Reads ts B (room + 1) ts.expression (grammar (room + 1)).expression := by
      intro links
      rw [unfolded]
      exact (conditional_reads hs ih.2 ih.1 links).nested
    exact ⟨expression, operand_reads hs expression fun links => (ih.2 links).nested⟩

end Nested

end ScoreSheet.Rule.Walk
