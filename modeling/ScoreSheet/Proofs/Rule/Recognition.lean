import ScoreSheet.Proofs.Rule.Derivation
set_option autoImplicit false

/-! The readers never go back, so each choice must be decided by the next token. Words of a
category are read as their tree in front of any token that cannot continue them, unless an
allowance is used up before. -/
namespace ScoreSheet.Rule

/-- The first result is the second one, unless a limit is met before. -/
def Reaches {α : Type} (x y : Except SyntaxError α) : Prop :=
  x = y ∨ ∃ e, x = .error e ∧ e.fault.Limit

def Accepts {α : Type} (parse : Parse α) (ends : Tokens → Prop) (w : List Token) (x : α) : Prop :=
  ∀ ts rest, ts.map Located.token = w → ends rest → Reaches (parse (ts ++ rest)) (.ok (x, rest))

structure EndsExpression (rest : Tokens) : Prop extends Ends Level.all rest where
  question : peek rest ≠ .sign .question

structure Uncalled (rest : Tokens) : Prop where
  ne_nil : rest ≠ []
  paren : peek rest ≠ .sign .leftParen

def Token.opens : Token → Bool
  | .number _ | .string _ | .name _ | .keyword .true | .keyword .false | .keyword .null
  | .keyword .undefined | .sign .leftParen | .sign .leftBracket | .sign .leftBrace => true
  | _ => false

def Token.starts (t : Token) : Bool := t.opens || (prefixOperator? t).isSome

/-! ## Results up to a limit -/

section Reaches
variable {α β : Type} {x y z : Except SyntaxError α}

theorem Reaches.refl (x : Except SyntaxError α) : Reaches x x :=
  .inl rfl

theorem Reaches.trans (h : Reaches x y) (h' : Reaches y z) : Reaches x z := by
  rcases h with rfl | h
  · exact h'
  · exact .inr h

theorem Reaches.bind (h : Reaches x y) (f : α → Except SyntaxError β) :
    Reaches (x >>= f) (y >>= f) := by
  rcases h with rfl | ⟨e, rfl, he⟩
  · exact .refl _
  · exact .inr ⟨e, rfl, he⟩

theorem Reaches.map (h : Reaches x y) (f : α → β) : Reaches (x.map f) (y.map f) := by
  rcases h with rfl | ⟨e, rfl, he⟩
  · exact .refl _
  · exact .inr ⟨e, rfl, he⟩

theorem Reaches.limit {fault : SyntaxFault} (h : fault.Limit) (ts : Tokens)
    (y : Except SyntaxError α) : Reaches (fail ts fault) y :=
  .inr ⟨_, rfl, h⟩

theorem outOfRoom_accepts (ends : Tokens → Prop) (w : List Token) (x : α) :
    Accepts outOfRoom ends w x :=
  fun _ _ _ _ => .limit .room _ _

end Reaches

/-! ## Words and their first tokens -/

theorem exists_around {ts : Tokens} {w v : List Token} {t : Token}
    (h : ts.map Located.token = w ++ t :: v) : ∃ before u behind, ts = before ++ u :: behind ∧
      before.map Located.token = w ∧ u.token = t ∧ behind.map Located.token = v := by
  obtain ⟨before, us, rfl, hw, hu⟩ := List.map_eq_append_iff.1 h
  obtain ⟨u, behind, rfl, ht, hv⟩ := List.map_eq_cons_iff.1 hu
  exact ⟨before, u, behind, rfl, hw, ht, hv⟩

theorem EndsExpression.of_token {t : Located} (h : t.token.ends = true) (hq : t.token ≠ .sign .question)
    (rest : Tokens) : EndsExpression (t :: rest) :=
  { Ends.of_token h rest with question := hq }

theorem EndsExpression.of_sign {t : Located} {s : Sign} (ht : t.token = .sign s)
    (h : (Token.sign s).ends = true) (hq : s ≠ .question) (rest : Tokens) :
    EndsExpression (t :: rest) :=
  .of_token (ht ▸ h) (by simpa [ht] using hq) rest

theorem prefixOperator?_eq_none {t : Token} (h : t.opens = true) : prefixOperator? t = none := by
  unfold Token.opens at h
  split at h <;> first | rfl | cases h

theorem starts_of_opens {t : Token} (h : t.opens = true) : t.starts = true := by
  rw [Token.starts, h, Bool.true_or]

/-- What the first token of the words tells. -/
def Category.Head : Category → List Token → Prop
  | .items, _ | .properties, _ => True
  | .primary, w | .selected, w => ∃ t v, w = t :: v ∧ t.opens = true
  | .item, w => ∃ t v, w = t :: v ∧ (t.starts = true ∨ t = .sign .ellipsis)
  | .property, w => ∃ t v n, w = t :: v ∧ PropertyKey t n
  | _, w => ∃ t v, w = t :: v ∧ t.starts = true

theorem Derives.head {c : Category} {w : List Token} {x : c.Tree} (h : Derives c w x) :
    c.Head w := by
  induction h with
  | operation _ ih | operand _ ih | tighter _ ih => exact ih
  | conditional _ _ _ ih _ _ | join _ _ _ ih _ =>
    obtain ⟨t, v, rfl, ht⟩ := ih
    exact ⟨t, _, rfl, ht⟩
  | prefixed ho _ _ => exact ⟨_, _, rfl, by cases ho <;> rfl⟩
  | selected _ ih =>
    obtain ⟨t, v, rfl, ht⟩ := ih
    exact ⟨t, v, rfl, starts_of_opens ht⟩
  | member _ _ ih | index _ _ ih _ =>
    obtain ⟨t, v, rfl, ht⟩ := ih
    exact ⟨t, _, rfl, ht⟩
  | primary _ ih => exact ih
  | literal hl => exact ⟨_, _, rfl, by cases hl <;> rfl⟩
  | name | paren | call | array | object => exact ⟨_, _, rfl, rfl⟩
  | one _ ih =>
    obtain ⟨t, v, rfl, ht⟩ := ih
    exact ⟨t, v, rfl, .inl ht⟩
  | spread => exact ⟨_, _, rfl, .inr rfl⟩
  | keyed hk => exact ⟨_, _, _, rfl, hk⟩
  | shorthand n => exact ⟨_, _, _, rfl, .name n⟩
  | noItem | lastItem | moreItems | noProperty | lastProperty | moreProperties => trivial

theorem Derives.semicolon_notMem {c : Category} {w : List Token} {x : c.Tree}
    (h : Derives c w x) : .sign .semicolon ∉ w := by
  induction h with
  | join ho _ _ _ _ => cases ho <;> simp_all
  | prefixed ho _ _ => cases ho <;> simp_all
  | literal hl => cases hl <;> simp
  | keyed hk _ _ => cases hk <;> simp_all
  | _ => simp_all

/-! ## Operators -/

theorem Operator.ends_none {level other : Level} {s : Sign} {op : Expr → Expr → Expr}
    (h : Operator level s op) (hl : other ≠ level) : other.operation? s = none := by
  cases h <;> cases other <;> first | rfl | exact absurd rfl hl

theorem Operator.ends {level : Level} {levels : List Level} {s : Sign} {op : Expr → Expr → Expr}
    (h : Operator level s op) (hl : level ∉ levels) {t : Located} (ht : t.token = .sign s)
    (rest : Tokens) : Ends levels (t :: rest) := by
  have other {s' : Sign} (hs : s ≠ s') : peek (t :: rest) ≠ .sign s' :=
    fun hp => hs (Token.sign.inj (ht.symm.trans hp))
  refine ⟨List.cons_ne_nil _ _, other ?_, other ?_, other ?_, fun level' hm => ?_⟩
  · cases h <;> decide
  · cases h <;> decide
  · cases h <;> decide
  · unfold Level.operationAt?
    rw [show peek (t :: rest) = .sign s from ht]
    exact h.ends_none fun he => hl (he ▸ hm)

section Levels
variable {operand : Nat → Parse Expr} {level : Level} {levels : List Level}

/-- Behind the words the reader goes on with further operands of the level. -/
def Resumes (operand : Nat → Parse Expr) (level : Level) (levels : List Level)
    (w : List Token) (e : Expr) : Prop :=
  ∀ links ts rest, ts.map Located.token = w → Ends levels rest → ∃ k,
    Reaches (operations operand (level :: levels) links (ts ++ rest))
      (chain level (operations operand levels) k e rest)

theorem Resumes.accepts {w : List Token} {e : Expr} (h : Resumes operand level levels w e)
    (links : Nat) :
    Accepts (operations operand (level :: levels) links) (Ends (level :: levels)) w e := by
  intro ts rest ht hr
  obtain ⟨k, hk⟩ := h links ts rest ht (hr.mono fun _ hm => List.mem_cons_of_mem _ hm)
  rwa [chain_stop (hr.operator level List.mem_cons_self)] at hk

theorem Resumes.tighter {w : List Token} {e : Expr}
    (h : ∀ links, Accepts (operations operand levels links) (Ends levels) w e) :
    Resumes operand level levels w e :=
  fun links ts rest ht hr => ⟨links, (h links ts rest ht hr).bind _⟩

theorem Resumes.join {s : Sign} {op : Expr → Expr → Expr} (ho : Operator level s op)
    (hl : level ∉ levels) {w v : List Token} {e f : Expr}
    (he : Resumes operand level levels w e)
    (hf : ∀ links, Accepts (operations operand levels links) (Ends levels) v f) :
    Resumes operand level levels (w ++ .sign s :: v) (op e f) := by
  intro links ts rest ht hr
  obtain ⟨ts, u, us, rfl, hts, hu, hus⟩ := exists_around ht
  rw [List.append_assoc, List.cons_append]
  obtain ⟨k, hk⟩ := he links ts (u :: (us ++ rest)) hts (ho.ends hl hu _)
  have hat : level.operationAt? (u :: (us ++ rest)) = some op :=
    Level.operationAt?_eq_some.2 ⟨s, hu, ho⟩
  cases k with
  | zero =>
    refine ⟨0, hk.trans ?_⟩
    rw [chain, hat]
    exact .limit .links _ _
  | succ k =>
    refine ⟨k, hk.trans ?_⟩
    have behind : us ++ rest ≠ [] := List.append_ne_nil_of_right_ne_nil _ hr.ne_nil
    rw [chain, hat]
    dsimp only
    rw [advance_cons u behind]
    exact (hf k us rest hus hr).bind _

end Levels

/-! ## Items and properties -/

section Brackets
variable {expression : Parse Expr}

theorem readItem_one {w : List Token} {e : Expr} (hw : Category.expression.Head w)
    (h : Accepts expression EndsExpression w e) : Accepts (readItem expression) EndsExpression w (.one e) := by
  intro ts rest ht hr
  obtain ⟨t, v, rfl, hs⟩ := hw
  obtain ⟨u, us, rfl, hu, -⟩ := List.map_eq_cons_iff.1 ht
  have no_ellipsis : peek (u :: us ++ rest) ≠ .sign .ellipsis := by
    intro (hp : u.token = .sign .ellipsis)
    rw [← hu, hp] at hs
    cases hs
  unfold readItem
  rw [if_neg no_ellipsis]
  exact (h _ rest ht hr).map _

theorem readItem_spread {w : List Token} {e : Expr} (h : Accepts expression EndsExpression w e) :
    Accepts (readItem expression) EndsExpression (.sign .ellipsis :: w) (.spread e) := by
  intro ts rest ht hr
  obtain ⟨u, us, rfl, hu, hus⟩ := List.map_eq_cons_iff.1 ht
  unfold readItem
  rw [if_pos (show peek (u :: us ++ rest) = _ from hu), List.cons_append,
    advance_cons u (List.append_ne_nil_of_right_ne_nil _ hr.ne_nil)]
  exact (h us rest hus hr).map _

theorem Category.Head.not_close {w : List Token} (hw : Category.item.Head w) {close : Sign}
    (hc : (Token.sign close).ends = true) {ts : Tokens} (ht : ts.map Located.token = w)
    (rest : Tokens) : peek (ts ++ rest) ≠ .sign close := by
  obtain ⟨t, v, rfl, hs⟩ := hw
  obtain ⟨u, us, rfl, hu, -⟩ := List.map_eq_cons_iff.1 ht
  intro (hp : u.token = .sign close)
  rw [← hu, hp] at hs
  cases close <;> simp_all [Token.starts, Token.opens, prefixOperator?, Token.ends]

structure EndsProperty (rest : Tokens) : Prop extends EndsExpression rest where
  colon : peek rest ≠ .sign .colon

theorem EndsProperty.of_sign {t : Located} {s : Sign} (ht : t.token = .sign s)
    (h : (Token.sign s).ends = true) (hq : s ≠ .question) (hc : s ≠ .colon) (rest : Tokens) :
    EndsProperty (t :: rest) :=
  { EndsExpression.of_sign ht h hq rest with
    colon := fun hp => hc (Token.sign.inj (ht.symm.trans hp)) }

theorem propertyName_cons {t : Located} {n : String} (hk : PropertyKey t.token n) {rest : Tokens}
    (hr : rest ≠ []) :
    ∃ alone, propertyName (t :: rest) = .ok ((n, alone), rest) ∧
      (t.token = .name n → alone = true) := by
  unfold propertyName
  rw [show peek (t :: rest) = t.token from rfl, advance_cons t hr]
  generalize t.token = token at hk
  cases hk with
  | name n => exact ⟨true, rfl, fun _ => rfl⟩
  | string s => exact ⟨false, rfl, fun h => nomatch h⟩
  | number x => exact ⟨false, rfl, fun h => nomatch h⟩

theorem readProperty_keyed {t : Token} {n : String} {w : List Token} {e : Expr}
    (hk : PropertyKey t n) (h : Accepts expression EndsExpression w e) :
    Accepts (readProperty expression) EndsProperty (t :: .sign .colon :: w) (n, e) := by
  intro ts rest ht hr
  obtain ⟨u, us, rfl, rfl, hus⟩ := List.map_eq_cons_iff.1 ht
  obtain ⟨c, us, rfl, hc, hus⟩ := List.map_eq_cons_iff.1 hus
  have behind : us ++ rest ≠ [] := List.append_ne_nil_of_right_ne_nil _ hr.ne_nil
  obtain ⟨alone, key, -⟩ :=
    propertyName_cons hk (List.cons_ne_nil c (us ++ rest))
  unfold readProperty
  rw [List.cons_append, List.cons_append, key]
  dsimp only [bind, Except.bind]
  rw [if_pos (show peek (c :: (us ++ rest)) = _ from hc), advance_cons c behind]
  exact (h us rest hus hr.toEndsExpression).map _

theorem readProperty_shorthand (n : String) :
    Accepts (readProperty expression) EndsProperty [.name n] (n, .name n) := by
  intro ts rest ht hr
  obtain ⟨u, us, rfl, hu, hus⟩ := List.map_eq_cons_iff.1 ht
  rw [List.map_eq_nil_iff.1 hus, List.singleton_append]
  obtain ⟨alone, key, halone⟩ :=
    propertyName_cons (hu ▸ PropertyKey.name n : PropertyKey u.token n) hr.ne_nil
  unfold readProperty
  rw [key, halone hu]
  dsimp only [bind, Except.bind]
  rw [if_neg hr.colon]
  exact .refl _

theorem Category.Head.not_brace {w : List Token} (hw : Category.property.Head w) {ts : Tokens}
    (ht : ts.map Located.token = w) (rest : Tokens) : peek (ts ++ rest) ≠ .sign .rightBrace := by
  obtain ⟨t, v, n, rfl, hk⟩ := hw
  obtain ⟨u, us, rfl, hu, -⟩ := List.map_eq_cons_iff.1 ht
  intro (hp : u.token = .sign .rightBrace)
  rw [← hu, hp] at hk
  cases hk

end Brackets

/-! ## Lists between brackets -/

def Encloses {α : Type} (parse : Nat → Parse α) (close : Sign) (w : List Token) (x : α) : Prop :=
  ∀ fuel ts c rest, ts.map Located.token = w → c.token = .sign close → rest ≠ [] →
    ts.length < fuel → Reaches (parse fuel (ts ++ c :: rest)) (.ok (x, rest))

section Separated
variable {α β : Type} {read : Parse α} {add : α → β → β} {none : β} {close : Sign}
  {ends : Tokens → Prop} {w : List Token} {x : α}

theorem separated_none : Encloses (separated read add none close) close [] none := by
  intro fuel ts c rest ht hc hr hf
  rw [List.map_eq_nil_iff.1 ht, List.nil_append]
  obtain ⟨fuel, rfl⟩ := Nat.exists_eq_add_of_le' (Nat.lt_of_le_of_lt (Nat.zero_le _) hf)
  rw [separated, if_pos (show peek (c :: rest) = _ from hc), advance_cons c hr]
  exact .refl _

variable (h : Accepts read ends w x)
  (hw : ∀ ts rest, ts.map Located.token = w → peek (ts ++ rest) ≠ .sign close)
include h hw

theorem separated_last (hends : ∀ c rest, c.token = .sign close → ends (c :: rest))
    (hcomma : close ≠ .comma) :
    Encloses (separated read add none close) close w (add x none) := by
  intro fuel ts c rest ht hc hr hf
  obtain ⟨fuel, rfl⟩ := Nat.exists_eq_add_of_le' (Nat.lt_of_le_of_lt (Nat.zero_le _) hf)
  have no_comma : peek (c :: rest) ≠ .sign .comma := fun hp =>
    hcomma (Token.sign.inj (hc.symm.trans hp))
  rw [separated, if_neg (hw ts _ ht)]
  refine ((h ts (c :: rest) ht (hends c rest hc)).bind _).trans ?_
  dsimp only [bind, Except.bind]
  rw [if_neg no_comma, expect_cons hc hr]
  exact .refl _

theorem separated_more (hends : ∀ c rest, c.token = .sign .comma → ends (c :: rest))
    {v : List Token} {later : β} (hl : Encloses (separated read add none close) close v later) :
    Encloses (separated read add none close) close (w ++ .sign .comma :: v) (add x later) := by
  intro fuel ts c rest ht hc hr hf
  obtain ⟨ts, u, us, rfl, hts, hu, hus⟩ := exists_around ht
  obtain ⟨fuel, rfl⟩ := Nat.exists_eq_add_of_le' (Nat.lt_of_le_of_lt (Nat.zero_le _) hf)
  have behind : us ++ c :: rest ≠ [] :=
    List.append_ne_nil_of_right_ne_nil _ (List.cons_ne_nil _ _)
  have enough : us.length < fuel := by
    rw [List.length_append, List.length_cons] at hf
    omega
  rw [List.append_assoc, List.cons_append, separated, if_neg (hw ts _ hts)]
  refine ((h ts _ hts (hends u (us ++ c :: rest) hu)).bind _).trans ?_
  dsimp only [bind, Except.bind]
  rw [if_pos (show peek (u :: (us ++ c :: rest)) = _ from hu), advance_cons u behind]
  exact (hl fuel us c rest hus hc hr enough).bind _

end Separated

/-! ## Primaries -/

section Primaries
variable {expression : Parse Expr}

theorem primary_literal {t : Token} {v : Value} (h : Literal t v) :
    Accepts (primary expression) Uncalled [t] (.literal v) := by
  intro ts rest ht hr
  obtain ⟨u, us, rfl, rfl, hus⟩ := List.map_eq_cons_iff.1 ht
  rw [List.map_eq_nil_iff.1 hus, List.singleton_append]
  unfold primary
  rw [show peek (u :: rest) = u.token from rfl, advance_cons u hr.ne_nil]
  generalize u.token = token at h
  cases h <;> exact .refl _

theorem primary_accepts_name (n : String) :
    Accepts (primary expression) Uncalled [.name n] (.name n) := by
  intro ts rest ht hr
  obtain ⟨u, us, rfl, hu, hus⟩ := List.map_eq_cons_iff.1 ht
  rw [List.map_eq_nil_iff.1 hus, List.singleton_append, primary_name hu hr.ne_nil hr.paren]
  exact .refl _

theorem primary_accepts_paren {w : List Token} {e : Expr}
    (h : Accepts expression EndsExpression w e) :
    Accepts (primary expression) Uncalled (.sign .leftParen :: (w ++ [.sign .rightParen])) e := by
  intro ts rest ht hr
  obtain ⟨u, ts, rfl, hu, hts⟩ := List.map_eq_cons_iff.1 ht
  obtain ⟨ts, c, us, rfl, hts, hc, hus⟩ := exists_around hts
  rw [List.map_eq_nil_iff.1 hus, List.cons_append, List.append_assoc, List.singleton_append]
  have behind : ts ++ c :: rest ≠ [] :=
    List.append_ne_nil_of_right_ne_nil _ (List.cons_ne_nil _ _)
  unfold primary
  rw [show peek (u :: (ts ++ c :: rest)) = .sign .leftParen from hu]
  dsimp only
  rw [advance_cons u behind]
  refine ((h ts (c :: rest) hts (.of_sign hc rfl (by decide) rest)).bind _).trans ?_
  dsimp only [bind, Except.bind]
  rw [expect_cons hc hr.ne_nil]
  exact .refl _

theorem primary_call {w : List Token} (n : String) {arguments : List (Item Expr)}
    (h : Encloses (items expression .rightParen) .rightParen w arguments) :
    Accepts (primary expression) Uncalled
      (.name n :: .sign .leftParen :: (w ++ [.sign .rightParen])) (.call n arguments) := by
  intro ts rest ht hr
  obtain ⟨u, ts, rfl, hu, hts⟩ := List.map_eq_cons_iff.1 ht
  obtain ⟨p, ts, rfl, hp, hts⟩ := List.map_eq_cons_iff.1 hts
  obtain ⟨ts, c, us, rfl, hts, hc, hus⟩ := exists_around hts
  rw [List.map_eq_nil_iff.1 hus, List.cons_append, List.cons_append, List.append_assoc,
    List.singleton_append]
  have behind : ts ++ c :: rest ≠ [] :=
    List.append_ne_nil_of_right_ne_nil _ (List.cons_ne_nil _ _)
  have enough : ts.length < (u :: p :: (ts ++ c :: rest)).length := by
    rw [List.length_cons, List.length_cons, List.length_append]
    omega
  unfold primary
  rw [show peek (u :: p :: (ts ++ c :: rest)) = .name n from hu]
  dsimp only
  rw [advance_cons u (List.cons_ne_nil _ _),
    if_pos (show peek (p :: (ts ++ c :: rest)) = _ from hp), advance_cons p behind]
  exact (h _ ts c rest hts hc hr.ne_nil enough).bind _

theorem primary_array {w : List Token} {elements : List (Item Expr)}
    (h : Encloses (items expression .rightBracket) .rightBracket w elements) :
    Accepts (primary expression) Uncalled
      (.sign .leftBracket :: (w ++ [.sign .rightBracket])) (.array elements) := by
  intro ts rest ht hr
  obtain ⟨u, ts, rfl, hu, hts⟩ := List.map_eq_cons_iff.1 ht
  obtain ⟨ts, c, us, rfl, hts, hc, hus⟩ := exists_around hts
  rw [List.map_eq_nil_iff.1 hus, List.cons_append, List.append_assoc, List.singleton_append]
  have behind : ts ++ c :: rest ≠ [] :=
    List.append_ne_nil_of_right_ne_nil _ (List.cons_ne_nil _ _)
  have enough : ts.length < (u :: (ts ++ c :: rest)).length := by
    rw [List.length_cons, List.length_append]
    omega
  unfold primary
  rw [show peek (u :: (ts ++ c :: rest)) = .sign .leftBracket from hu]
  dsimp only
  rw [advance_cons u behind]
  exact (h _ ts c rest hts hc hr.ne_nil enough).bind _

theorem primary_object {w : List Token} {fields : List (String × Expr)}
    (h : Encloses (properties expression) .rightBrace w fields) :
    Accepts (primary expression) Uncalled
      (.sign .leftBrace :: (w ++ [.sign .rightBrace])) (.object fields) := by
  intro ts rest ht hr
  obtain ⟨u, ts, rfl, hu, hts⟩ := List.map_eq_cons_iff.1 ht
  obtain ⟨ts, c, us, rfl, hts, hc, hus⟩ := exists_around hts
  rw [List.map_eq_nil_iff.1 hus, List.cons_append, List.append_assoc, List.singleton_append]
  have behind : ts ++ c :: rest ≠ [] :=
    List.append_ne_nil_of_right_ne_nil _ (List.cons_ne_nil _ _)
  have enough : ts.length < (u :: (ts ++ c :: rest)).length := by
    rw [List.length_cons, List.length_append]
    omega
  unfold primary
  rw [show peek (u :: (ts ++ c :: rest)) = .sign .leftBrace from hu]
  dsimp only
  rw [advance_cons u behind]
  exact (h _ ts c rest hts hc hr.ne_nil enough).bind _

end Primaries

/-! ## Operands and conditionals -/

section Operands
variable {deeper expression : Nat → Parse Expr}

def Selects (parse expression : Nat → Parse Expr) (w : List Token) (e : Expr) : Prop :=
  ∀ links ts rest, ts.map Located.token = w → Uncalled rest → ∃ k,
    Reaches (parse links (ts ++ rest)) (selectors expression k e rest)

theorem Selects.accepts {parse : Nat → Parse Expr} {w : List Token} {e : Expr}
    (h : Selects parse expression w e) (links : Nat) : Accepts (parse links) (Ends []) w e := by
  intro ts rest ht hr
  obtain ⟨k, hk⟩ := h links ts rest ht ⟨hr.ne_nil, hr.paren⟩
  rwa [selectors_stop hr] at hk

theorem Selects.primary {w : List Token} {e : Expr} (hw : Category.primary.Head w)
    (h : ∀ links, Accepts (primary (expression links)) Uncalled w e) :
    Selects (operand deeper expression) expression w e := by
  intro links ts rest ht hr
  refine ⟨links, ?_⟩
  obtain ⟨t, v, rfl, hs⟩ := hw
  have no_operator : prefixOperator? (peek (ts ++ rest)) = none := by
    obtain ⟨u, us, rfl, rfl, -⟩ := List.map_eq_cons_iff.1 ht
    exact prefixOperator?_eq_none hs
  unfold operand
  rw [no_operator]
  exact (h links ts rest ht hr).bind _

section Selectors
variable {parse : Nat → Parse Expr} {w : List Token} {e : Expr}
  (h : Selects parse expression w e)
include h

theorem Selects.member (n : String) :
    Selects parse expression (w ++ [.sign .dot, .name n]) (.member e n) := by
  intro links ts rest ht hr
  obtain ⟨ts, u, us, rfl, hts, hu, hus⟩ := exists_around ht
  obtain ⟨v, us, rfl, hv, hus⟩ := List.map_eq_cons_iff.1 hus
  rw [List.map_eq_nil_iff.1 hus, List.append_assoc, List.cons_append, List.singleton_append]
  have dot : peek (u :: v :: rest) = .sign .dot := hu
  obtain ⟨k, hk⟩ := h links ts (u :: v :: rest) hts
    ⟨List.cons_ne_nil _ _, by rw [dot]; decide⟩
  cases k with
  | zero =>
    refine ⟨0, hk.trans ?_⟩
    rw [selectors, if_pos (.inl dot)]
    exact .limit .links _ _
  | succ k =>
    refine ⟨k, hk.trans ?_⟩
    rw [selectors, if_pos dot, advance_cons u (List.cons_ne_nil _ _),
      identifier_cons hv hr.ne_nil]
    dsimp only [bind, Except.bind]
    rw [if_neg hr.paren]
    exact .refl _

theorem Selects.index {v : List Token} {f : Expr}
    (hf : ∀ links, Accepts (expression links) EndsExpression v f) :
    Selects parse expression (w ++ .sign .leftBracket :: (v ++ [.sign .rightBracket]))
      (.index e f) := by
  intro links ts rest ht hr
  obtain ⟨ts, u, us, rfl, hts, hu, hus⟩ := exists_around ht
  obtain ⟨us, c, cs, rfl, hus, hc, hcs⟩ := exists_around hus
  rw [List.map_eq_nil_iff.1 hcs, List.append_assoc, List.cons_append, List.append_assoc,
    List.singleton_append]
  have bracket : peek (u :: (us ++ c :: rest)) = .sign .leftBracket := hu
  have behind : us ++ c :: rest ≠ [] :=
    List.append_ne_nil_of_right_ne_nil _ (List.cons_ne_nil _ _)
  obtain ⟨k, hk⟩ := h links ts (u :: (us ++ c :: rest)) hts
    ⟨List.cons_ne_nil _ _, by rw [bracket]; decide⟩
  cases k with
  | zero =>
    refine ⟨0, hk.trans ?_⟩
    rw [selectors, if_pos (.inr bracket)]
    exact .limit .links _ _
  | succ k =>
    refine ⟨k, hk.trans ?_⟩
    rw [selectors, if_neg (by rw [bracket]; decide), if_pos bracket, advance_cons u behind]
    refine ((hf k us (c :: rest) hus (.of_sign hc rfl (by decide) rest)).bind _).trans ?_
    dsimp only [bind, Except.bind]
    rw [expect_cons hc hr.ne_nil]
    exact .refl _

end Selectors

theorem operand_prefixed {s : Sign} {op : UnaryOp} {w : List Token} {e : Expr} {links : Nat}
    (ho : PrefixOperator s op) (h : Accepts (deeper links) (Ends []) w e) :
    Accepts (operand deeper expression links) (Ends []) (.sign s :: w) (.unary op e) := by
  intro ts rest ht hr
  obtain ⟨u, ts, rfl, hu, hts⟩ := List.map_eq_cons_iff.1 ht
  have hop : prefixOperator? (peek (u :: (ts ++ rest))) = some op :=
    prefixOperator?_eq_some.2 ⟨s, hu, ho⟩
  unfold operand
  rw [List.cons_append, hop]
  dsimp only
  rw [advance_cons u (List.append_ne_nil_of_right_ne_nil _ hr.ne_nil)]
  exact (h ts rest hts hr).bind _

section Conditionals
variable {operand : Nat → Parse Expr} {links : Nat} {w : List Token} {c : Expr}
  (hc : Accepts (operations operand Level.all links) (Ends Level.all) w c)
include hc

theorem conditional_condition :
    Accepts (conditional operand expression links) EndsExpression w c := by
  intro ts rest ht hr
  unfold conditional
  refine ((hc ts rest ht hr.toEnds).bind _).trans ?_
  dsimp only [bind, Except.bind]
  rw [if_neg hr.question]
  exact .refl _

theorem conditional_branches {y n : List Token} {e f : Expr}
    (he : Accepts (expression links) EndsExpression y e)
    (hf : Accepts (expression links) EndsExpression n f) :
    Accepts (conditional operand expression links) EndsExpression
      (w ++ .sign .question :: (y ++ .sign .colon :: n)) (.conditional c e f) := by
  intro ts rest ht hr
  obtain ⟨ts, u, us, rfl, hts, hu, hus⟩ := exists_around ht
  obtain ⟨us, v, vs, rfl, hus, hv, hvs⟩ := exists_around hus
  rw [List.append_assoc, List.cons_append, List.append_assoc, List.cons_append]
  have past_colon : vs ++ rest ≠ [] := List.append_ne_nil_of_right_ne_nil _ hr.ne_nil
  have past_question : us ++ v :: (vs ++ rest) ≠ [] :=
    List.append_ne_nil_of_right_ne_nil _ (List.cons_ne_nil _ _)
  unfold conditional
  refine ((hc ts (u :: (us ++ v :: (vs ++ rest))) hts
    (.of_token (by rw [hu]; rfl) _)).bind _).trans ?_
  dsimp only [bind, Except.bind]
  rw [if_pos (show peek (u :: (us ++ v :: (vs ++ rest))) = _ from hu),
    advance_cons u past_question]
  refine ((he us (v :: (vs ++ rest)) hus (.of_sign hv rfl (by decide) _)).bind _).trans ?_
  dsimp only [bind, Except.bind]
  rw [expect_cons hv past_colon]
  exact (hf vs rest hvs hr).bind _

end Conditionals

end Operands

end ScoreSheet.Rule
