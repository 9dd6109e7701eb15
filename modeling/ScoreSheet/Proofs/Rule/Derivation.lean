import ScoreSheet.Proofs.Rule.Boundary
import ScoreSheet.Proofs.Rule.Grammar
import ScoreSheet.Proofs.Rule.Separated
set_option autoImplicit false

/-! Every reader takes the words of its category off the front of the tokens. Whatever spends
room or links takes a token as well, so a reader that meets a limit has more tokens in
front of it than the smaller of the two allowances. -/
namespace ScoreSheet.Rule

inductive SyntaxFault.Limit : SyntaxFault → Prop where
  | room : Limit .nestedTooDeep
  | links : Limit .chainTooLong

/-- A result satisfies `P`, and `L` holds where a limit is met. -/
def Outcome {α : Type} (P : α → Prop) (L : Prop) : Except SyntaxError α → Prop
  | .ok x => P x
  | .error e => e.fault.Limit → L

structure Spans (ts : Tokens) (w : List Token) (rest : Tokens) : Prop where
  split : ∃ read, read.map Located.token = w ∧ ts = read ++ rest
  ended : Ended rest

/-- The reader takes words off that `D` relates to what it returns. A limit is met only
in front of more than `n` tokens. -/
def Reading {α : Type} (D : List Token → α → Prop) (n : Nat) (parse : Parse α) : Prop :=
  ∀ ts, Ended ts →
    Outcome (fun x => ∃ w, D w x.1 ∧ Spans ts w x.2) (n < ts.length) (parse ts)

section Outcomes
variable {α β : Type} {P : α → Prop} {Q : β → Prop} {L L' : Prop} {x : Except SyntaxError α}

theorem Outcome.bind {f : α → Except SyntaxError β} (hx : Outcome P L x) (hl : L → L')
    (hf : ∀ a, P a → Outcome Q L' (f a)) : Outcome Q L' (x >>= f) := by
  cases x with
  | ok a => exact hf a hx
  | error e => exact fun he => hl (hx he)

theorem Outcome.map {f : α → β} (hx : Outcome P L x) (hl : L → L') (hf : ∀ a, P a → Q (f a)) :
    Outcome Q L' (x.map f) := by
  cases x with
  | ok a => exact hf a hx
  | error e => exact fun he => hl (hx he)

theorem Outcome.mono {P' : α → Prop} (hx : Outcome P L x) (hp : ∀ a, P a → P' a) (hl : L → L') :
    Outcome P' L' x := by
  cases x with
  | ok a => exact hp a hx
  | error e => exact fun he => hl (hx he)

theorem Outcome.unexpected (ts : Tokens) (wanted : Wanted) :
    Outcome P L (unexpected ts wanted) :=
  fun h => nomatch h

end Outcomes

theorem Spans.refl {ts : Tokens} (h : Ended ts) : Spans ts [] ts :=
  ⟨⟨[], rfl, rfl⟩, h⟩

theorem Spans.trans {ts us rest : Tokens} {w v : List Token} (hw : Spans ts w us)
    (hv : Spans us v rest) : Spans ts (w ++ v) rest := by
  obtain ⟨⟨read, rfl, rfl⟩, -⟩ := hw
  obtain ⟨⟨later, rfl, rfl⟩, hr⟩ := hv
  exact ⟨⟨read ++ later, List.map_append, (List.append_assoc ..).symm⟩, hr⟩

theorem Spans.cons {ts us rest : Tokens} {t : Token} {v : List Token} (ht : Spans ts [t] us)
    (hv : Spans us v rest) : Spans ts (t :: v) rest :=
  ht.trans hv

theorem Spans.length {ts rest : Tokens} {w : List Token} (h : Spans ts w rest) :
    ts.length = w.length + rest.length := by
  obtain ⟨⟨read, rfl, rfl⟩, -⟩ := h
  rw [List.length_append, List.length_map]

theorem Spans.length_token {ts rest : Tokens} {t : Token} (h : Spans ts [t] rest) :
    ts.length = rest.length + 1 :=
  h.length.trans (Nat.add_comm 1 _)

theorem Spans.next {ts : Tokens} {t : Token} (h : Ended ts) (hp : peek ts = t) (ht : t ≠ .stop) :
    Spans ts [t] (advance ts) := by
  subst hp
  obtain ⟨u, hu, hts, hr⟩ := h.next ht
  exact ⟨⟨[u], congrArg (· :: []) hu, hts⟩, hr⟩

theorem Spans.sign {ts : Tokens} {s : Sign} (h : Ended ts) (hp : peek ts = .sign s) :
    Spans ts [.sign s] (advance ts) :=
  .next h hp fun hs => nomatch hs

section Steps
variable {ts : Tokens} {L : Prop}

theorem expect_outcome (s : Sign) (h : Ended ts) :
    Outcome (Spans ts [.sign s]) L (expect s ts) := by
  unfold expect
  split
  · exact Spans.sign h ‹_›
  · exact Outcome.unexpected _ _

theorem identifier_outcome (h : Ended ts) :
    Outcome (fun x => Spans ts [.name x.1] x.2) L (identifier ts) := by
  unfold identifier
  split
  · exact Spans.next h ‹_› fun hs => nomatch hs
  · exact Outcome.unexpected _ _

theorem propertyName_outcome (h : Ended ts) :
    Outcome (fun x => ∃ t, PropertyKey t x.1.1 ∧ (x.1.2 = true → t = .name x.1.1) ∧
      Spans ts [t] x.2) L (propertyName ts) := by
  unfold propertyName
  split
  · exact ⟨_, .name _, fun _ => rfl, .next h ‹_› (by simp)⟩
  · exact ⟨_, .string _, fun hs => absurd hs (by simp), .next h ‹_› (by simp)⟩
  · exact ⟨_, .number _, fun hs => absurd hs (by simp), .next h ‹_› (by simp)⟩
  · exact Outcome.unexpected _ _

end Steps

theorem outOfRoom_reading {α : Type} (D : List Token → α → Prop) : Reading D 0 outOfRoom :=
  fun _ hs _ => hs.length_pos

section Levels
variable {operand : Nat → Parse Expr} {room : Nat}

theorem chain_reading {level : Level} {levels : List Level}
    (ho : ∀ links, Reading (Derives (.operation levels)) (min room (links + 1)) (operand links))
    (links : Nat) {w : List Token} {left : Expr}
    (hl : Derives (.operation (level :: levels)) w left) :
    Reading (fun v e => Derives (.operation (level :: levels)) (w ++ v) e)
      (min room (links + 1)) (chain level operand links left) := by
  induction links generalizing w left with
  | zero =>
    intro ts hs
    unfold chain
    split
    · exact ⟨[], by simpa using hl, .refl hs⟩
    · rename_i hj
      obtain ⟨s, hp, -⟩ := Level.operationAt?_eq_some.1 hj
      have step := Spans.sign hs hp
      have longer := step.length_token
      have behind := step.ended.length_pos
      intro _
      omega
  | succ links ih =>
    intro ts hs
    unfold chain
    split
    · exact ⟨[], by simpa using hl, .refl hs⟩
    · rename_i hj
      obtain ⟨s, hp, hop⟩ := Level.operationAt?_eq_some.1 hj
      have step := Spans.sign hs hp
      have longer := step.length_token
      refine (ho links _ step.ended).bind (fun h => by omega) ?_
      rintro ⟨right, us⟩ ⟨v, hv, (hsv : Spans _ v us)⟩
      have further := hsv.length
      refine (ih (.join hop hl hv) us hsv.ended).mono ?_ (fun h => by omega)
      rintro ⟨e, rest⟩ ⟨u, hu, hsu⟩
      rw [List.append_assoc, List.cons_append] at hu
      exact ⟨_, hu, step.cons (hsv.trans hsu)⟩

theorem operations_reading
    (ho : ∀ links, Reading (Derives .prefixed) (min room (links + 1)) (operand links))
    (levels : List Level) (links : Nat) :
    Reading (Derives (.operation levels)) (min room (links + 1))
      (operations operand levels links) := by
  induction levels generalizing links with
  | nil =>
    intro ts hs
    exact (ho links ts hs).mono (fun _ ⟨w, hw, hsw⟩ => ⟨w, .operand hw, hsw⟩) id
  | cons level levels ih =>
    intro ts hs
    refine (ih links ts hs).bind id ?_
    rintro ⟨left, us⟩ ⟨w, hw, (hsw : Spans ts w us)⟩
    have longer := hsw.length
    refine (chain_reading ih links (.tighter hw) us hsw.ended).mono ?_ (fun h => by omega)
    rintro ⟨e, rest⟩ ⟨v, hv, hsv⟩
    exact ⟨_, hv, hsw.trans hsv⟩

end Levels

theorem separated_reading {α β : Type} {D : List Token → α → Prop} {E : List Token → β → Prop}
    {n : Nat} {read : Parse α} {add : α → β → β} {none : β} (close : Sign)
    (hread : Reading D n read) (hnone : E [] none)
    (hlast : ∀ {w x}, D w x → E w (add x none))
    (hmore : ∀ {w v x later}, D w x → E v later → E (w ++ .sign .comma :: v) (add x later))
    (fuel : Nat) :
    Reading (fun w x => ∃ v, w = v ++ [.sign close] ∧ E v x) n
      (separated read add none close fuel) := by
  induction fuel with
  | zero => exact fun ts _ => Outcome.unexpected ts _
  | succ fuel ih =>
    intro ts hs
    unfold separated
    split
    · exact ⟨_, ⟨[], rfl, hnone⟩, Spans.sign hs ‹_›⟩
    · refine (hread ts hs).bind id ?_
      rintro ⟨x, us⟩ ⟨w, hw, (hsw : Spans ts w us)⟩
      have longer := hsw.length
      dsimp only
      split
      · have comma := Spans.sign hsw.ended ‹_›
        have further := comma.length_token
        refine (ih _ comma.ended).bind (fun h => by omega) ?_
        rintro ⟨later, rest⟩ ⟨_, ⟨v, rfl, hv⟩, hsv⟩
        have words : w ++ .sign .comma :: (v ++ [.sign close])
            = w ++ .sign .comma :: v ++ [.sign close] := by simp
        exact ⟨_, ⟨_, words, hmore hw hv⟩, hsw.trans (comma.cons hsv)⟩
      · refine (expect_outcome close hsw.ended).bind id ?_
        exact fun rest hr => ⟨_, ⟨w, rfl, hlast hw⟩, hsw.trans hr⟩

section Brackets
variable {expression : Parse Expr} {n : Nat} (he : Reading (Derives .expression) n expression)
include he

theorem readItem_reading : Reading (Derives .item) n (readItem expression) := by
  intro ts hs
  unfold readItem
  split
  · have step := Spans.sign hs ‹_›
    have longer := step.length_token
    refine (he _ step.ended).map (fun h => by omega) ?_
    rintro ⟨e, rest⟩ ⟨w, hw, hsw⟩
    exact ⟨_, .spread hw, step.cons hsw⟩
  · refine (he ts hs).map id ?_
    rintro ⟨e, rest⟩ ⟨w, hw, hsw⟩
    exact ⟨_, .one hw, hsw⟩

theorem items_reading (close : Sign) (fuel : Nat) :
    Reading (fun w elements => ∃ v, w = v ++ [.sign close] ∧ Derives .items v elements) n
      (items expression close fuel) := by
  rw [items_eq_separated]
  exact separated_reading close (readItem_reading he) .noItem .lastItem .moreItems fuel

theorem readProperty_reading : Reading (Derives .property) n (readProperty expression) := by
  intro ts hs
  unfold readProperty
  refine (propertyName_outcome hs).bind id ?_
  rintro ⟨⟨name, alone⟩, us⟩ ⟨t, hk, hname, (hst : Spans ts [t] us)⟩
  have longer := hst.length
  dsimp only
  split
  · have colon := Spans.sign hst.ended ‹_›
    have further := colon.length
    refine (he _ colon.ended).map (fun h => by omega) ?_
    rintro ⟨e, rest⟩ ⟨w, hw, hsw⟩
    exact ⟨_, .keyed hk hw, hst.cons (colon.cons hsw)⟩
  · split
    · obtain rfl : t = .name name := hname ‹_›
      exact ⟨_, .shorthand name, hst⟩
    · exact Outcome.unexpected _ _

theorem properties_reading (fuel : Nat) :
    Reading (fun w fields => ∃ v, w = v ++ [.sign .rightBrace] ∧
      ∃ all, fields = lastOfEachName all ∧ Derives .properties v all) n
      (properties expression fuel) := by
  rw [properties_eq_separated]
  refine separated_reading .rightBrace (readProperty_reading he) ⟨[], rfl, .noProperty⟩ ?_ ?_ fuel
  · exact fun hf => ⟨[_], rfl, .lastProperty hf⟩
  · rintro w v f later hf ⟨all, rfl, hall⟩
    exact ⟨_, withProperty_lastOfEachName f.1 f.2 all, .moreProperties hf hall⟩

theorem primary_reading : Reading (Derives .primary) (n + 1) (primary expression) := by
  intro ts hs
  unfold primary
  split
  case h_7 name hp =>
    have step := Spans.next hs hp (by simp)
    have longer := step.length_token
    split
    · have paren := Spans.sign step.ended ‹_›
      have further := paren.length
      refine (items_reading he _ _ _ paren.ended).bind (fun h => by omega) ?_
      rintro ⟨arguments, rest⟩ ⟨_, ⟨w, rfl, hw⟩, hsw⟩
      exact ⟨_, .call name hw, step.cons (paren.cons hsw)⟩
    · exact ⟨_, .name name, step⟩
  case h_8 hp =>
    have step := Spans.sign hs hp
    have longer := step.length_token
    refine (he _ step.ended).bind (fun h => by omega) ?_
    rintro ⟨e, us⟩ ⟨w, hw, (hsw : Spans _ w us)⟩
    refine (expect_outcome .rightParen hsw.ended).bind id ?_
    exact fun rest hr => ⟨_, .paren hw, step.cons (hsw.trans hr)⟩
  case h_9 hp =>
    have step := Spans.sign hs hp
    have longer := step.length_token
    refine (items_reading he _ _ _ step.ended).bind (fun h => by omega) ?_
    rintro ⟨elements, rest⟩ ⟨_, ⟨w, rfl, hw⟩, hsw⟩
    exact ⟨_, .array hw, step.cons hsw⟩
  case h_10 hp =>
    have step := Spans.sign hs hp
    have longer := step.length_token
    refine (properties_reading he _ _ step.ended).bind (fun h => by omega) ?_
    rintro ⟨fields, rest⟩ ⟨_, ⟨w, rfl, all, rfl, hw⟩, hsw⟩
    exact ⟨_, .object hw, step.cons hsw⟩
  case h_11 => exact Outcome.unexpected _ _
  all_goals exact ⟨_, .literal (by constructor), Spans.next hs ‹_› (by simp)⟩

end Brackets

section Operands
variable {deeper expression : Nat → Parse Expr} {room : Nat}
  (he : ∀ links, Reading (Derives .expression) (min room (links + 1)) (expression links))
include he

theorem selectors_reading (links : Nat) {w : List Token} {object : Expr}
    (ho : Derives .selected w object) :
    Reading (fun v e => Derives .selected (w ++ v) e) (min (room + 1) (links + 1))
      (selectors expression links object) := by
  induction links generalizing w object with
  | zero =>
    intro ts hs
    unfold selectors
    split
    · obtain ⟨s, hp⟩ : ∃ s, peek ts = .sign s := by
        rcases ‹_ ∨ _› with hp | hp <;> exact ⟨_, hp⟩
      have step := Spans.sign hs hp
      have longer := step.length_token
      have behind := step.ended.length_pos
      intro _
      omega
    · split
      · intro h
        cases h
      · exact ⟨[], by simpa using ho, .refl hs⟩
  | succ links ih =>
    intro ts hs
    unfold selectors
    split
    · have dot := Spans.sign hs ‹_›
      have longer := dot.length_token
      refine (identifier_outcome dot.ended).bind id ?_
      rintro ⟨property, us⟩ (hn : Spans _ [.name property] us)
      have further := hn.length
      dsimp only
      split
      · intro h
        cases h
      · refine (ih (.member property ho) us hn.ended).mono ?_ (fun h => by omega)
        rintro ⟨e, rest⟩ ⟨v, hv, hsv⟩
        exact ⟨_, by simpa using hv, dot.cons (hn.cons hsv)⟩
    · split
      · have bracket := Spans.sign hs ‹_›
        have longer := bracket.length_token
        refine (he links _ bracket.ended).bind (fun h => by omega) ?_
        rintro ⟨property, us⟩ ⟨v, hv, (hsv : Spans _ v us)⟩
        have further := hsv.length
        refine (expect_outcome .rightBracket hsv.ended).bind id ?_
        intro us' hclose
        have closer := hclose.length
        refine (ih (.index ho hv) us' hclose.ended).mono ?_ (fun h => by omega)
        rintro ⟨e, rest⟩ ⟨u, hu, hsu⟩
        exact ⟨_, by simpa using hu, bracket.cons (hsv.trans (hclose.cons hsu))⟩
      · split
        · intro h
          cases h
        · exact ⟨[], by simpa using ho, .refl hs⟩

theorem operand_reading
    (hd : ∀ links, Reading (Derives .prefixed) (min room (links + 1)) (deeper links))
    (links : Nat) :
    Reading (Derives .prefixed) (min (room + 1) (links + 1)) (operand deeper expression links) := by
  intro ts hs
  unfold operand
  split
  · obtain ⟨s, hp, hop⟩ := prefixOperator?_eq_some.1 ‹_›
    have step := Spans.sign hs hp
    have longer := step.length_token
    refine (hd links _ step.ended).bind (fun h => by omega) ?_
    rintro ⟨e, rest⟩ ⟨w, hw, hsw⟩
    exact ⟨_, .prefixed hop hw, step.cons hsw⟩
  · refine (primary_reading (he links) ts hs).bind (fun h => by omega) ?_
    rintro ⟨e, us⟩ ⟨w, hw, (hsw : Spans ts w us)⟩
    have longer := hsw.length
    refine (selectors_reading he links (.primary hw) us hsw.ended).mono ?_ (fun h => by omega)
    rintro ⟨e, rest⟩ ⟨v, hv, hsv⟩
    exact ⟨_, .selected hv, hsw.trans hsv⟩

theorem conditional_reading {operand : Nat → Parse Expr}
    (ho : ∀ links, Reading (Derives .prefixed) (min (room + 1) (links + 1)) (operand links))
    (links : Nat) :
    Reading (Derives .expression) (min (room + 1) (links + 1))
      (conditional operand expression links) := by
  intro ts hs
  unfold conditional
  refine (operations_reading ho Level.all links ts hs).bind id ?_
  rintro ⟨condition, us⟩ ⟨w, hw, (hsw : Spans ts w us)⟩
  have longer := hsw.length
  dsimp only
  split
  · have question := Spans.sign hsw.ended ‹_›
    have further := question.length_token
    refine (he links _ question.ended).bind (fun h => by omega) ?_
    rintro ⟨yes, us₁⟩ ⟨y, hy, (hsy : Spans _ y us₁)⟩
    have past_yes := hsy.length
    refine (expect_outcome .colon hsy.ended).bind id ?_
    intro us₂ hcolon
    have past_colon := hcolon.length
    refine (he links _ hcolon.ended).bind (fun h => by omega) ?_
    rintro ⟨no, rest⟩ ⟨m, hm, hsm⟩
    exact ⟨_, .conditional hw hy hm,
      hsw.trans (question.cons (hsy.trans (hcolon.cons hsm)))⟩
  · exact ⟨w, .operation hw, hsw⟩

end Operands

theorem grammar_reading (room links : Nat) :
    Reading (Derives .expression) (min room (links + 1)) ((grammar room).expression links) ∧
      Reading (Derives .prefixed) (min (room + 1) (links + 1)) ((grammar room).operand links) := by
  induction room generalizing links with
  | zero =>
    have empty (D : List Token → Expr → Prop) (links : Nat) :
        Reading D (min 0 (links + 1)) outOfRoom := by
      rw [Nat.zero_min]
      exact outOfRoom_reading D
    exact ⟨empty _ links, operand_reading (empty _) (empty _) links⟩
  | succ room ih =>
    have hexpression (links : Nat) : Reading (Derives .expression) (min (room + 1) (links + 1))
        ((grammar (room + 1)).expression links) :=
      conditional_reading (fun links => (ih links).1) (fun links => (ih links).2) links
    exact ⟨hexpression links, operand_reading hexpression (fun links => (ih links).2) links⟩

end ScoreSheet.Rule
