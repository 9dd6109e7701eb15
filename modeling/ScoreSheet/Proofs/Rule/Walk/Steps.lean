import ScoreSheet.Proofs.Rule.Boundary
import ScoreSheet.Rule.Walk
set_option autoImplicit false

/-! A walk agrees with a reading of the tokens in front of it if it ends, with the result or the
error of the reading, in front of the tokens that the reading leaves. All cursors on the way
stay inside the tokens and within bounds of the two counters. Each step of a walk has a
counterpart in the reading, or only moves a counter. -/
namespace ScoreSheet.Rule.Walk

/-! ## Bounds -/

/-- What the counters may come up to. A walk can start with more than the limits allow. -/
structure Bounds where
  depth : Nat
  links : Nat
  nestingLimit_le : nestingLimit ≤ depth
  chainLimit_le : chainLimit ≤ links

structure Inside (ts : Tokens) (B : Bounds) (c : Cursor) : Prop where
  place : c.place < ts.length
  depth : c.depth ≤ B.depth
  links : c.links ≤ B.links

/-- The walk stands inside the tokens and the bounds, and has never left them. -/
structure Sound (ts : Tokens) (B : Bounds) (w : Walk) : Prop where
  now : Inside ts B w.now
  passed : ∀ c ∈ w.passed, Inside ts B c

def moved (f : Cursor → Cursor) (w : Walk) : Walk := ⟨f w.now, f w.now :: w.passed⟩

def rest (ts : Tokens) (w : Walk) : Tokens := ts.drop w.now.place

def advanced (ts : Tokens) (w : Walk) : Walk :=
  w.moved fun c => if c.place < ts.length - 1 then { c with place := c.place + 1 } else c

def entered (w : Walk) : Walk := w.moved fun c => { c with depth := c.depth + 1 }

def left (w : Walk) : Walk := w.moved fun c => { c with depth := c.depth - 1 }

def linked (w : Walk) : Walk := w.moved fun c => { c with links := c.links + 1 }

def relinked (count : Nat) (w : Walk) : Walk := w.moved fun c => { c with links := count }

section Sound
variable {ts : Tokens} {B : Bounds} {w : Walk}

theorem Sound.moved {f : Cursor → Cursor} (h : Sound ts B w) (hf : Inside ts B (f w.now)) :
    Sound ts B (w.moved f) :=
  ⟨hf, List.forall_mem_cons.2 ⟨hf, h.passed⟩⟩

theorem Sound.advanced (h : Sound ts B w) : Sound ts B (w.advanced ts) := by
  refine h.moved ?_
  have inside := h.now
  split
  · exact { inside with place := by dsimp only; omega }
  · exact inside

theorem Sound.entered (h : Sound ts B w) (room : w.now.depth < nestingLimit) :
    Sound ts B w.entered :=
  h.moved { h.now with depth := Nat.le_trans room B.nestingLimit_le }

theorem Sound.left (h : Sound ts B w) : Sound ts B w.left :=
  h.moved { h.now with depth := Nat.le_trans (Nat.sub_le _ 1) h.now.depth }

theorem Sound.linked (h : Sound ts B w) (room : w.now.links < chainLimit) :
    Sound ts B w.linked :=
  h.moved { h.now with links := Nat.le_trans room B.chainLimit_le }

theorem Sound.relinked (h : Sound ts B w) {count : Nat} (hc : count ≤ B.links) :
    Sound ts B (w.relinked count) :=
  h.moved { h.now with links := hc }

end Sound

/-! ## Tokens in front -/

section Rest
variable {ts : Tokens} {w : Walk}

theorem tokenAt_eq {place : Nat} (h : place < ts.length) :
    ts.tokenAt place = Rule.current (ts.drop place) := by
  unfold Tokens.tokenAt
  rw [Nat.min_eq_left (Nat.le_sub_one_of_lt h), List.drop_eq_getElem_cons h,
    List.getElem?_eq_getElem h]
  rfl

theorem advance_drop {place : Nat} (h : place < ts.length) :
    Rule.advance (ts.drop place) =
      ts.drop (if place < ts.length - 1 then place + 1 else place) := by
  rw [List.drop_eq_getElem_cons h]
  split
  · exact advance_cons _ (List.ne_nil_of_length_pos (by rw [List.length_drop]; omega))
  · rw [List.drop_eq_nil_iff.2 (by omega), List.drop_eq_getElem_cons h,
      List.drop_eq_nil_iff.2 (by omega)]
    rfl

theorem rest_advanced (h : w.now.place < ts.length) :
    (w.advanced ts).rest ts = Rule.advance (w.rest ts) := by
  refine Eq.trans ?_ (advance_drop h).symm
  unfold rest advanced moved
  dsimp only
  split <;> rfl

theorem tokenAt_next (h : w.now.place < ts.length) :
    ts.tokenAt (w.now.place + 1) = Rule.current (Rule.advance (w.rest ts)) := by
  by_cases last : w.now.place < ts.length - 1
  · rw [tokenAt_eq (by omega), rest, advance_drop h, if_pos last]
  · rw [rest, advance_drop h, if_neg last, ← tokenAt_eq h]
    unfold Tokens.tokenAt
    rw [Nat.min_eq_right (by omega), Nat.min_eq_right (by omega)]

theorem ended_rest (hs : Ended ts) (h : w.now.place < ts.length) : Ended (w.rest ts) := by
  unfold rest
  generalize w.now.place = place at h
  induction place generalizing ts with
  | zero => exact hs
  | succ place ih =>
    cases hs with
    | stop ht => exact absurd h (by simp)
    | more ht hs =>
      rw [List.drop_succ_cons]
      exact ih hs (Nat.lt_of_succ_lt_succ h)

/-- A token other than the stop has another one behind it. -/
theorem advanced_now (hs : Ended ts) (h : w.now.place < ts.length)
    (hp : peek (w.rest ts) ≠ .stop) :
    (w.advanced ts).now = { w.now with place := w.now.place + 1 } := by
  obtain ⟨t, -, front, further⟩ := (ended_rest hs h).next hp
  have behind := further.length_pos
  have lengths : ts.length - w.now.place = (Rule.advance (w.rest ts)).length + 1 := by
    rw [← List.length_drop]
    exact congrArg List.length front
  exact if_pos (by omega)

end Rest

/-! ## Agreement -/

/-- How a cursor has moved over something that was read to its end: forward, with both
counters as they were. -/
structure Past (w w' : Walk) : Prop where
  place : w.now.place < w'.now.place
  depth : w'.now.depth = w.now.depth
  links : w'.now.links = w.now.links

/-- How a cursor moves within a chain: not backward, and at the same depth. -/
structure Along (w w' : Walk) : Prop where
  place : w.now.place ≤ w'.now.place
  depth : w'.now.depth = w.now.depth

theorem Past.trans {w w' w'' : Walk} (h : Past w w') (h' : Past w' w'') : Past w w'' :=
  ⟨Nat.lt_trans h.place h'.place, h'.depth.trans h.depth, h'.links.trans h.links⟩

theorem Past.shorter {ts : Tokens} {B : Bounds} {w w' : Walk} (h : Past w w')
    (hw : Sound ts B w) : (w'.rest ts).length < (w.rest ts).length := by
  have inside := hw.now.place
  have further := h.place
  unfold rest
  rw [List.length_drop, List.length_drop]
  omega

theorem Past.along {w w' : Walk} (h : Past w w') : Along w w' :=
  ⟨Nat.le_of_lt h.place, h.depth⟩

theorem Along.refl (w : Walk) : Along w w := ⟨Nat.le_refl _, rfl⟩

theorem Along.trans {w w' w'' : Walk} (h : Along w w') (h' : Along w' w'') : Along w w'' :=
  ⟨Nat.le_trans h.place h'.place, h'.depth.trans h.depth⟩

/-- The walk ends as the reading does: with its result, in front of the tokens that it
leaves and in a state that `Q` holds of, or with its error, which stands at a token. -/
def Agrees {α : Type} (ts : Tokens) (B : Bounds) (Q : Walk → Prop)
    (run : Option (Except SyntaxError (α × Walk))) : Except SyntaxError (α × Tokens) → Prop
  | .ok x => ∃ w, run = some (.ok (x.1, w)) ∧ x.2 = w.rest ts ∧ Sound ts B w ∧ Q w
  | .error e => run = some (.error e) ∧ ∃ t ∈ ts, e.position = t.position

section Agreement
variable {α β : Type} {ts : Tokens} {B : Bounds} {Q Q' : Walk → Prop} {w : Walk}

theorem bind_of_ok {m : Walking α} {k : α → Walking β} {x : α} {w' : Walk}
    (h : m w = some (.ok (x, w'))) : (m >>= k) w = k x w' := by
  change (m w >>= ExceptT.bindCont fun p => k p.1 p.2 : Option _) = _
  rw [h]
  rfl

theorem bind_of_error {m : Walking α} {k : α → Walking β} {e : SyntaxError}
    (h : m w = some (.error e)) : (m >>= k) w = some (.error e) := by
  change (m w >>= ExceptT.bindCont fun p => k p.1 p.2 : Option _) = _
  rw [h]
  rfl

theorem Agrees.pure (h : Sound ts B w) (x : α) (hq : Q w) :
    Agrees ts B Q ((Pure.pure x : Walking α) w) (.ok (x, w.rest ts)) :=
  ⟨w, rfl, rfl, h, hq⟩

theorem Agrees.bind {m : Walking α} {k : α → Walking β}
    {r : Except SyntaxError (α × Tokens)}
    {q : α × Tokens → Except SyntaxError (β × Tokens)} (hm : Agrees ts B Q (m w) r)
    (hk : ∀ x w', Sound ts B w' → Q w' → Agrees ts B Q' (k x w') (q (x, w'.rest ts))) :
    Agrees ts B Q' ((m >>= k) w) (r >>= q) := by
  cases r with
  | error e => exact ⟨bind_of_error hm.1, hm.2⟩
  | ok x =>
    obtain ⟨x, us⟩ := x
    obtain ⟨w', run, rfl, sound, hq⟩ := hm
    rw [bind_of_ok run]
    exact hk x w' sound hq

theorem Agrees.map {m : Walking α} {f : α → β} {g : α × Tokens → β × Tokens}
    {r : Except SyntaxError (α × Tokens)} (hm : Agrees ts B Q (m w) r)
    (hg : ∀ x us, g (x, us) = (f x, us)) (hq : ∀ w', Q w' → Q' w') :
    Agrees ts B Q' ((m >>= fun x => Pure.pure (f x)) w) (r.map g) := by
  have mapped : Agrees ts B Q' ((m >>= fun x => Pure.pure (f x)) w) (r >>= fun x => .ok (g x)) :=
    hm.bind fun x w' h' q => by
      rw [hg]
      exact .pure h' (f x) (hq w' q)
  cases r <;> exact mapped

/-- What follows is no part of the reading. -/
theorem Agrees.followed {m : Walking α} {k : α → Walking α}
    {r : Except SyntaxError (α × Tokens)} (hm : Agrees ts B Q (m w) r)
    (hk : ∀ x w', Sound ts B w' → Q w' → Agrees ts B Q' (k x w') (.ok (x, w'.rest ts))) :
    Agrees ts B Q' ((m >>= k) w) r := by
  have whole := hm.bind (q := .ok) hk
  cases r <;> exact whole

theorem Agrees.mono {run : Option (Except SyntaxError (α × Walk))}
    {r : Except SyntaxError (α × Tokens)} (h : Agrees ts B Q run r) (hq : ∀ w, Q w → Q' w) :
    Agrees ts B Q' run r := by
  cases r with
  | error e => exact h
  | ok x =>
    obtain ⟨w', run, left, sound, q⟩ := h
    exact ⟨w', run, left, sound, hq w' q⟩

/-- What is added in front of nothing read before is nothing. -/
theorem Agrees.of_bind {run : Option (Except SyntaxError (α × Walk))}
    {r : Except SyntaxError (α × Tokens)} {f : α → α}
    (h : Agrees ts B Q run (r >>= fun x => .ok (f x.1, x.2))) (hf : ∀ x, f x = x) :
    Agrees ts B Q run r := by
  cases r with
  | error e => exact h
  | ok x =>
    change Agrees ts B Q run (.ok (f x.1, x.2)) at h
    rw [hf] at h
    exact h

end Agreement

/-! ## Single steps -/

section Steps
variable {α : Type} {ts : Tokens} {B : Bounds} {Q : Walk → Prop} {w : Walk}

theorem Sound.rest_advanced (h : Sound ts B w) :
    (w.advanced ts).rest ts = Rule.advance (w.rest ts) :=
  Walk.rest_advanced h.now.place

theorem Sound.past_advanced (h : Sound ts B w) (hs : Ended ts)
    (hp : peek (w.rest ts) ≠ .stop) : Past w (w.advanced ts) := by
  have now := advanced_now hs h.now.place hp
  exact ⟨by rw [now]; exact Nat.lt_succ_self _, by rw [now], by rw [now]⟩

theorem Sound.look_bind (h : Sound ts B w) (k : Token → Walking α) :
    (ts.look >>= k) w = k (peek (w.rest ts)) w := by
  change k (ts.tokenAt w.now.place).token w = _
  rw [tokenAt_eq h.now.place]
  rfl

theorem Sound.lookBehind_bind (h : Sound ts B w) (k : Token → Walking α) :
    (ts.lookBehind >>= k) w = k (peek (Rule.advance (w.rest ts))) w := by
  change k (ts.tokenAt (w.now.place + 1)).token w = _
  rw [tokenAt_next h.now.place]
  rfl

theorem advance_bind (k : Unit → Walking α) : (ts.advance >>= k) w = k () (w.advanced ts) :=
  rfl

theorem Sound.operator_bind (h : Sound ts B w) (level : Level)
    (k : Option (Expr → Expr → Expr) → Walking α) :
    (ts.operator level >>= k) w = k (level.operationAt? (w.rest ts)) w := by
  unfold Tokens.operator
  rw [bind_assoc, h.look_bind, Level.operationAt?]
  cases peek (w.rest ts) <;> rfl

theorem Sound.eat_bind (h : Sound ts B w) (t : Token) (k : Bool → Walking α) :
    (ts.eat t >>= k) w =
      if peek (w.rest ts) = t then k true (w.advanced ts) else k false w := by
  unfold Tokens.eat
  rw [bind_assoc, h.look_bind]
  split <;> rfl

/-- Errors stand at the current token. -/
theorem fail_agrees (h : w.now.place < ts.length) (fault : SyntaxFault) :
    Agrees ts B Q ((ts.fail fault : Walking α) w) (Rule.fail (w.rest ts) fault) := by
  have here : ts.tokenAt w.now.place = Rule.current (w.rest ts) := tokenAt_eq h
  refine ⟨?_, ts.get ⟨w.now.place, h⟩, List.get_mem _ _, ?_⟩
  · change some (Except.error (SyntaxError.mk fault (ts.tokenAt w.now.place).position)) = _
    rw [here]
  · rw [rest, List.drop_eq_getElem_cons h]
    rfl

/-- Nothing is done after an error. -/
theorem fail_bind_agrees {β : Type} (h : w.now.place < ts.length) (fault : SyntaxFault)
    (k : β → Walking α) :
    Agrees ts B Q ((ts.fail fault >>= k) w) (Rule.fail (w.rest ts) fault) :=
  (fail_agrees (Q := fun _ => False) h fault).bind
    (q := fun _ => Rule.fail (w.rest ts) fault) fun _ _ _ => False.elim

theorem Sound.unexpected_agrees (h : Sound ts B w) (wanted : Wanted) :
    Agrees ts B Q ((ts.unexpected wanted : Walking α) w)
      (Rule.unexpected (w.rest ts) wanted) := by
  unfold Tokens.unexpected
  rw [h.look_bind]
  exact fail_agrees h.now.place _

theorem Sound.unexpected_bind_agrees {β : Type} (h : Sound ts B w) (wanted : Wanted)
    (k : β → Walking α) :
    Agrees ts B Q ((ts.unexpected wanted >>= k) w) (Rule.unexpected (w.rest ts) wanted) := by
  unfold Tokens.unexpected
  rw [bind_assoc, h.look_bind]
  exact fail_bind_agrees h.now.place _ k

theorem Sound.eat_agrees (h : Sound ts B w) (hs : Ended ts) {t : Token} (ht : t ≠ .stop)
    {k : Bool → Walking α} {yes no : Except SyntaxError (α × Tokens)}
    (hyes : peek (w.rest ts) = t → Sound ts B (w.advanced ts) → Past w (w.advanced ts) →
      Agrees ts B Q (k true (w.advanced ts)) yes)
    (hno : peek (w.rest ts) ≠ t → Agrees ts B Q (k false w) no) :
    Agrees ts B Q ((ts.eat t >>= k) w) (if peek (w.rest ts) = t then yes else no) := by
  rw [h.eat_bind]
  split
  · rename_i hp
    exact hyes hp h.advanced (h.past_advanced hs (hp ▸ ht))
  · exact hno ‹_›

theorem Sound.expect_agrees (h : Sound ts B w) (hs : Ended ts) {s : Sign}
    {k : Unit → Walking α} {q : Tokens → Except SyntaxError (α × Tokens)}
    (hk : ∀ w', Sound ts B w' → Past w w' → Agrees ts B Q (k () w') (q (w'.rest ts))) :
    Agrees ts B Q ((ts.expect s >>= k) w) (Rule.expect s (w.rest ts) >>= q) := by
  have sign : Agrees ts B (Past w) (ts.expect s w)
      ((Rule.expect s (w.rest ts)).map fun rest => ((), rest)) := by
    unfold Tokens.expect Rule.expect
    rw [h.eat_bind]
    split
    · rename_i hp
      rw [← h.rest_advanced]
      exact .pure h.advanced () (h.past_advanced hs (by rw [hp]; simp))
    · exact h.unexpected_agrees (.sign s)
  have whole := sign.bind (q := fun x => q x.2) fun _ => hk
  cases hr : Rule.expect s (w.rest ts) <;> rw [hr] at whole <;> exact whole

theorem Sound.identifier_agrees (h : Sound ts B w) (hs : Ended ts) :
    Agrees ts B (Past w) (ts.identifier w) (Rule.identifier (w.rest ts)) := by
  unfold Tokens.identifier Rule.identifier
  rw [h.look_bind]
  cases hp : peek (w.rest ts) with
  | name n =>
    rw [← h.rest_advanced]
    exact .pure h.advanced n (h.past_advanced hs (by rw [hp]; simp))
  | _ => exact h.unexpected_agrees .name

theorem Sound.propertyName_agrees (h : Sound ts B w) (hs : Ended ts) :
    Agrees ts B (Past w) (ts.propertyName w) (Rule.propertyName (w.rest ts)) := by
  unfold Tokens.propertyName Rule.propertyName
  rw [h.look_bind]
  have step (ht : peek (w.rest ts) ≠ .stop) (x : String × Bool) :
      Agrees ts B (Past w) ((ts.advance >>= fun _ => pure x : Walking (String × Bool)) w)
        (.ok (x, Rule.advance (w.rest ts))) := by
    rw [← h.rest_advanced]
    exact .pure h.advanced x (h.past_advanced hs ht)
  cases hp : peek (w.rest ts) with
  | name n => exact step (by rw [hp]; simp) _
  | string s => exact step (by rw [hp]; simp) _
  | number x => exact step (by rw [hp]; simp) _
  | _ => exact h.unexpected_agrees .propertyName

/-! ## Counted steps -/

theorem Sound.link_agrees (h : Sound ts B w) {k : Unit → Walking α}
    {r : Except SyntaxError (α × Tokens)}
    (hk : w.now.links < chainLimit → Sound ts B w.linked → Agrees ts B Q (k () w.linked) r)
    (hf : chainLimit ≤ w.now.links → r = Rule.fail (w.rest ts) .chainTooLong) :
    Agrees ts B Q ((ts.link >>= k) w) r := by
  change Agrees ts B Q (((if w.linked.now.links > chainLimit then ts.fail .chainTooLong
    else pure ()) >>= k) w.linked) r
  by_cases room : w.now.links < chainLimit
  · have within : ¬ w.linked.now.links > chainLimit := Nat.not_lt.2 room
    rw [if_neg within]
    exact hk room (h.linked room)
  · have full : chainLimit ≤ w.now.links := Nat.not_lt.1 room
    have beyond : w.linked.now.links > chainLimit := Nat.lt_succ_of_le full
    rw [if_pos beyond, hf full]
    exact fail_bind_agrees (w := w.linked) h.now.place .chainTooLong k

/-- A link takes one of those that are left. -/
theorem Sound.link_takes (h : Sound ts B w) {k : Unit → Walking α}
    {r : Except SyntaxError (α × Tokens)} {links : Nat}
    (hl : chainLimit - w.now.links = links + 1)
    (hk : Sound ts B w.linked → chainLimit - w.linked.now.links = links →
      Agrees ts B Q (k () w.linked) r) :
    Agrees ts B Q ((ts.link >>= k) w) r := by
  refine h.link_agrees (fun _ sound => hk sound ?_) (fun full => by omega)
  change chainLimit - (w.now.links + 1) = links
  omega

theorem Sound.link_fails (h : Sound ts B w) (hl : chainLimit - w.now.links = 0)
    (k : Unit → Walking α) :
    Agrees ts B Q ((ts.link >>= k) w) (Rule.fail (w.rest ts) .chainTooLong) :=
  h.link_agrees (fun room => absurd hl (Nat.sub_ne_zero_of_lt room)) fun _ => rfl

theorem Sound.enter_agrees (h : Sound ts B w) {k : Unit → Walking α}
    {r : Except SyntaxError (α × Tokens)}
    (hk : w.now.depth < nestingLimit → Sound ts B w.entered → Agrees ts B Q (k () w.entered) r)
    (hf : nestingLimit ≤ w.now.depth → r = Rule.fail (w.rest ts) .nestedTooDeep) :
    Agrees ts B Q ((ts.enter >>= k) w) r := by
  change Agrees ts B Q (((if w.entered.now.depth > nestingLimit then ts.fail .nestedTooDeep
    else pure ()) >>= k) w.entered) r
  by_cases room : w.now.depth < nestingLimit
  · have within : ¬ w.entered.now.depth > nestingLimit := Nat.not_lt.2 room
    rw [if_neg within]
    exact hk room (h.entered room)
  · have full : nestingLimit ≤ w.now.depth := Nat.not_lt.1 room
    have beyond : w.entered.now.depth > nestingLimit := Nat.lt_succ_of_le full
    rw [if_pos beyond, hf full]
    exact fail_bind_agrees (w := w.entered) h.now.place .nestedTooDeep k

end Steps

/-! ## Parts of a walk -/

section Parts
variable {α β : Type} {ts : Tokens} {B : Bounds}

def ReadsAt (ts : Tokens) (B : Bounds) (room links : Nat) (m : Walking α) (parse : Parse α) :
    Prop :=
  ∀ w, Sound ts B w → nestingLimit - w.now.depth = room → chainLimit - w.now.links = links →
    Agrees ts B (Past w) (m w) (parse (w.rest ts))

abbrev Reads (ts : Tokens) (B : Bounds) (room : Nat) (m : Walking α) (parse : Nat → Parse α) :
    Prop :=
  ∀ links, ReadsAt ts B room links m (parse links)

theorem Past.room {w w' : Walk} (h : Past w w') {room : Nat}
    (hr : nestingLimit - w.now.depth = room) : nestingLimit - w'.now.depth = room := by
  rw [h.depth, hr]

theorem Past.left {w w' : Walk} (h : Past w w') {links : Nat}
    (hl : chainLimit - w.now.links = links) : chainLimit - w'.now.links = links := by
  rw [h.links, hl]

def nested (ts : Tokens) (m : Walking α) : Walking α := do
  ts.enter
  let x ← m
  leave
  return x

/-- Reading something nested gives its room back. -/
theorem ReadsAt.nested {room links : Nat} {m : Walking α} {parse : Parse α}
    (hm : ReadsAt ts B room links m parse) :
    ReadsAt ts B (room + 1) links (nested ts m) parse := by
  intro w h hr hl
  refine h.enter_agrees (fun _ inside => ?_) (fun full => by omega)
  have deeper : nestingLimit - w.entered.now.depth = room := by
    change nestingLimit - (w.now.depth + 1) = room
    omega
  refine (hm w.entered inside deeper hl).followed fun x w' sound past => ?_
  have back : Past w w'.left := by
    refine ⟨past.place, ?_, past.links⟩
    change w'.now.depth - 1 = w.now.depth
    rw [past.depth]
    rfl
  exact .pure sound.left x back

/-- Where there is no room, nothing nested is read. -/
theorem nested_fails (m : Walking α) (links : Nat) :
    ReadsAt ts B 0 links (nested ts m) outOfRoom := fun _ h hr _ =>
  h.enter_agrees (fun room => absurd hr (Nat.sub_ne_zero_of_lt room)) fun _ => rfl

end Parts

end ScoreSheet.Rule.Walk
