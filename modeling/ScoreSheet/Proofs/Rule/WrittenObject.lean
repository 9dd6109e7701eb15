import ScoreSheet.Proofs.Rule.Grammar
import ScoreSheet.Proofs.Rule.Separated
set_option autoImplicit false

/-! A reading that keeps every property of an object, also where a later one has its name. The
parser gives the same trees without the properties that are replaced, at every depth, and
accepts the same texts. -/
namespace ScoreSheet.Rule

/-- Reads a primary expression; an object keeps all properties in their order. -/
def writtenPrimary (expression : Parse Expr) : Parse Expr := fun ts =>
  if peek ts = .sign .leftBrace then do
    let (fields, ts) ←
      separated (readProperty expression) List.cons [] .rightBrace ts.length (advance ts)
    .ok (.object fields, ts)
  else primary expression ts

def writtenOperand (deeper expression : Nat → Parse Expr) (links : Nat) : Parse Expr := fun ts =>
  match prefixOperator? (peek ts) with
  | some op => do
    let (e, ts) ← deeper links (advance ts)
    .ok (.unary op e, ts)
  | none => do
    let (e, ts) ← writtenPrimary (expression links) ts
    selectors expression links e ts

def writtenGrammar : Nat → Grammar
  | 0 => ⟨fun _ => outOfRoom, writtenOperand (fun _ => outOfRoom) (fun _ => outOfRoom)⟩
  | room + 1 =>
    let inner := writtenGrammar room
    let expression := conditional inner.operand inner.expression
    ⟨expression, writtenOperand inner.operand expression⟩

mutual

/-- The expression without the properties that later ones of their object replace. -/
def Expr.trimmed : Expr → Expr
  | .literal v => .literal v
  | .name n => .name n
  | .array items => .array (trimmedItems items)
  | .object fields => .object (lastOfEachName (trimmedFields fields))
  | .unary op e => .unary op e.trimmed
  | .binary op e f => .binary op e.trimmed f.trimmed
  | .logical op e f => .logical op e.trimmed f.trimmed
  | .conditional c e f => .conditional c.trimmed e.trimmed f.trimmed
  | .call function arguments => .call function (trimmedItems arguments)
  | .member e name => .member e.trimmed name
  | .index e f => .index e.trimmed f.trimmed

def trimmedItems : List (Item Expr) → List (Item Expr)
  | [] => []
  | .one e :: rest => .one e.trimmed :: trimmedItems rest
  | .spread e :: rest => .spread e.trimmed :: trimmedItems rest

def trimmedFields : List (String × Expr) → List (String × Expr)
  | [] => []
  | (name, e) :: rest => (name, e.trimmed) :: trimmedFields rest

end

def Item.trimmed : Item Expr → Item Expr
  | .one e => .one e.trimmed
  | .spread e => .spread e.trimmed

theorem trimmedItems_cons (i : Item Expr) (rest : List (Item Expr)) :
    trimmedItems (i :: rest) = i.trimmed :: trimmedItems rest := by
  cases i <;> rw [trimmedItems, Item.trimmed]

section Maps
variable {α β γ δ : Type}

/-- Both readings take the same tokens and fail alike, and `f` makes the result of the second
one out of that of the first one. -/
def Maps (f : α → β) (p : Parse α) (q : Parse β) : Prop :=
  ∀ ts, q ts = (p ts).map fun x => (f x.1, x.2)

theorem bind_maps {f : α → β} {g : γ → δ} {r : Except SyntaxError (α × Tokens)}
    {k : α × Tokens → Except SyntaxError γ} {k' : β × Tokens → Except SyntaxError δ}
    (hk : ∀ x us, k' (f x, us) = (k (x, us)).map g) :
    ((r.map fun x => (f x.1, x.2)) >>= k') = (r >>= k).map g := by
  cases r with
  | error e => rfl
  | ok x => exact hk x.1 x.2

theorem same_bind_maps {ε : Type} {r : Except ε α} {g : γ → δ} {k : α → Except ε γ}
    {k' : α → Except ε δ} (hk : ∀ x, k' x = (k x).map g) : (r >>= k') = (r >>= k).map g := by
  cases r with
  | error e => rfl
  | ok x => exact hk x

end Maps

section Expressions
variable {p q : Parse Expr}

theorem separated_maps {α α' β β' : Type} {f : α → α'} {g : β → β'} {read : Parse α}
    {read' : Parse α'} {add : α → β → β} {add' : α' → β' → β'} {none : β} {none' : β'}
    (hr : Maps f read read') (hn : none' = g none)
    (ha : ∀ x later, add' (f x) (g later) = g (add x later)) (close : Sign) (fuel : Nat) :
    Maps g (separated read add none close fuel) (separated read' add' none' close fuel) := by
  subst hn
  induction fuel with
  | zero => exact fun _ => rfl
  | succ fuel ih =>
    intro ts
    rw [separated, separated]
    split
    · rfl
    · rw [hr ts]
      refine bind_maps fun x us => ?_
      dsimp only
      rw [ih (advance us)]
      split
      · exact bind_maps fun later vs => by rw [ha]; rfl
      · exact same_bind_maps fun vs => by rw [ha]; rfl

theorem readItem_maps (he : Maps Expr.trimmed p q) :
    Maps Item.trimmed (readItem p) (readItem q) := by
  intro ts
  unfold readItem
  rw [he, he]
  split
  · cases p (advance ts) <;> rfl
  · cases p ts <;> rfl

theorem readProperty_maps (he : Maps Expr.trimmed p q) :
    Maps (fun f => (f.1, f.2.trimmed)) (readProperty p) (readProperty q) := by
  intro ts
  unfold readProperty
  refine same_bind_maps fun x => ?_
  obtain ⟨⟨name, alone⟩, us⟩ := x
  dsimp only
  rw [he]
  split
  · cases p (advance us) <;> rfl
  · split
    · rfl
    · rfl

theorem items_maps (he : Maps Expr.trimmed p q) (close : Sign) (fuel : Nat) :
    Maps trimmedItems (items p close fuel) (items q close fuel) := by
  rw [items_eq_separated, items_eq_separated]
  exact separated_maps (readItem_maps he) (by rw [trimmedItems])
    (fun i later => (trimmedItems_cons i later).symm) close fuel

theorem properties_maps (he : Maps Expr.trimmed p q) (fuel : Nat) :
    Maps (fun fields => lastOfEachName (trimmedFields fields))
      (separated (readProperty p) List.cons [] .rightBrace fuel) (properties q fuel) := by
  rw [properties_eq_separated]
  refine separated_maps (readProperty_maps he) (by rw [trimmedFields]; rfl)
    (fun f later => ?_) .rightBrace fuel
  rw [withProperty_lastOfEachName, trimmedFields]

theorem primary_maps (he : Maps Expr.trimmed p q) :
    Maps Expr.trimmed (writtenPrimary p) (primary q) := by
  intro ts
  unfold writtenPrimary
  split
  · rename_i brace
    rw [primary, brace]
    dsimp only
    rw [properties_maps he]
    exact bind_maps (f := fun fields => lastOfEachName (trimmedFields fields))
      fun fields us => rfl
  · rename_i brace
    unfold primary
    cases hp : peek ts with
    | name n =>
      dsimp only
      split
      · rw [items_maps he]
        exact bind_maps fun arguments us => rfl
      · rfl
    | sign s =>
      cases s with
      | leftParen =>
        dsimp only
        rw [he]
        exact bind_maps fun e us => same_bind_maps fun vs => rfl
      | leftBracket =>
        dsimp only
        rw [items_maps he]
        exact bind_maps fun elements us => rfl
      | leftBrace => exact absurd hp brace
      | _ => rfl
    | keyword k => cases k <;> rfl
    | _ => rfl

end Expressions

section Chains
variable {p q : Nat → Parse Expr}

theorem trimmed_operation {level : Level} {ts : Tokens} {join : Expr → Expr → Expr}
    (h : level.operationAt? ts = some join) (e f : Expr) :
    join e.trimmed f.trimmed = (join e f).trimmed := by
  obtain ⟨s, -, ho⟩ := Level.operationAt?_eq_some.1 h
  cases ho <;> rw [Expr.trimmed]

theorem chain_maps (h : ∀ links, Maps Expr.trimmed (p links) (q links)) (level : Level)
    (links : Nat) (e : Expr) (ts : Tokens) :
    chain level q links e.trimmed ts =
      (chain level p links e ts).map fun x => (x.1.trimmed, x.2) := by
  induction links generalizing e ts with
  | zero =>
    rw [chain, chain]
    cases level.operationAt? ts <;> rfl
  | succ links ih =>
    rw [chain, chain]
    cases ho : level.operationAt? ts with
    | none => rfl
    | some join =>
      dsimp only
      rw [h]
      refine bind_maps fun f us => ?_
      dsimp only
      rw [trimmed_operation ho, ih]

theorem operations_maps (h : ∀ links, Maps Expr.trimmed (p links) (q links))
    (levels : List Level) (links : Nat) :
    Maps Expr.trimmed (operations p levels links) (operations q levels links) := by
  induction levels generalizing links with
  | nil => exact h links
  | cons level levels ih =>
    intro ts
    rw [operations, operations, ih]
    exact bind_maps fun e us => chain_maps ih level links e us

theorem selectors_maps (h : ∀ links, Maps Expr.trimmed (p links) (q links)) (links : Nat)
    (e : Expr) (ts : Tokens) :
    selectors q links e.trimmed ts =
      (selectors p links e ts).map fun x => (x.1.trimmed, x.2) := by
  induction links generalizing e ts with
  | zero =>
    rw [selectors, selectors]
    split
    · rfl
    · split <;> rfl
  | succ links ih =>
    rw [selectors, selectors]
    split
    · refine same_bind_maps fun x => ?_
      dsimp only
      split
      · rfl
      · rw [← ih, Expr.trimmed]
    · split
      · rw [h]
        refine bind_maps fun f us => same_bind_maps fun vs => ?_
        rw [← ih, Expr.trimmed]
      · split <;> rfl

theorem operand_maps {deeper deeper' : Nat → Parse Expr}
    (hd : ∀ links, Maps Expr.trimmed (deeper links) (deeper' links))
    (h : ∀ links, Maps Expr.trimmed (p links) (q links)) (links : Nat) :
    Maps Expr.trimmed (writtenOperand deeper p links) (operand deeper' q links) := by
  intro ts
  unfold writtenOperand operand
  cases prefixOperator? (peek ts) with
  | none =>
    dsimp only
    rw [primary_maps (h links)]
    exact bind_maps fun e us => selectors_maps h links e us
  | some op =>
    dsimp only
    rw [hd]
    exact bind_maps fun e us => rfl

theorem conditional_maps {operand operand' : Nat → Parse Expr}
    (ho : ∀ links, Maps Expr.trimmed (operand links) (operand' links))
    (h : ∀ links, Maps Expr.trimmed (p links) (q links)) (links : Nat) :
    Maps Expr.trimmed (conditional operand p links) (conditional operand' q links) := by
  intro ts
  unfold conditional
  rw [operations_maps ho]
  refine bind_maps fun c us => ?_
  dsimp only
  split
  · rw [h]
    refine bind_maps fun e vs => same_bind_maps fun ws => ?_
    rw [h]
    exact bind_maps fun f xs => rfl
  · rfl

end Chains

/-- What is written is read by both, and what the parser gives is the written tree without
the properties that are replaced. -/
theorem grammar_maps (room : Nat) :
    (∀ links, Maps Expr.trimmed ((writtenGrammar room).expression links)
        ((grammar room).expression links)) ∧
      ∀ links, Maps Expr.trimmed ((writtenGrammar room).operand links)
        ((grammar room).operand links) := by
  induction room with
  | zero => exact ⟨fun _ _ => rfl, operand_maps (fun _ _ => rfl) fun _ _ => rfl⟩
  | succ room ih =>
    have expression := conditional_maps ih.2 ih.1
    exact ⟨expression, operand_maps ih.2 expression⟩

end ScoreSheet.Rule
