import ScoreSheet.Proofs.Result
import ScoreSheet.Rule.Parser
set_option autoImplicit false

/-! Items and properties are read alike: one after another with commas between them, up to a
closing sign that a comma may precede. They differ in what one of them is and in what it
adds to the later ones. -/
namespace ScoreSheet.Rule

def separated {α β : Type} (read : Parse α) (add : α → β → β) (none : β) (close : Sign) :
    Nat → Parse β
  | 0, ts => unexpected ts (.sign close)
  | fuel + 1, ts =>
    if peek ts = .sign close then .ok (none, advance ts)
    else do
      let (x, ts) ← read ts
      if peek ts = .sign .comma then
        let (later, ts) ← separated read add none close fuel (advance ts)
        .ok (add x later, ts)
      else
        let ts ← expect close ts
        .ok (add x none, ts)

def readItem (expression : Parse Expr) : Parse (Item Expr) := fun ts =>
  if peek ts = .sign .ellipsis then
    (expression (advance ts)).map fun (e, ts) => (.spread e, ts)
  else (expression ts).map fun (e, ts) => (.one e, ts)

def readProperty (expression : Parse Expr) : Parse (String × Expr) := fun ts => do
  let ((name, alone), ts) ← propertyName ts
  if peek ts = .sign .colon then (expression (advance ts)).map fun (e, ts) => ((name, e), ts)
  else if alone then .ok ((name, .name name), ts)
  else unexpected ts (.sign .colon)

theorem items_eq_separated (expression : Parse Expr) (close : Sign) (fuel : Nat) :
    items expression close fuel = separated (readItem expression) List.cons [] close fuel := by
  induction fuel with
  | zero => rfl
  | succ fuel ih =>
    funext ts
    rw [items, separated]
    split
    · rfl
    · dsimp only
      rw [ite_bind, ih]
      rfl

theorem properties_eq_separated (expression : Parse Expr) (fuel : Nat) :
    properties expression fuel = separated (readProperty expression)
      (fun f later => withProperty f.1 f.2 later) [] .rightBrace fuel := by
  induction fuel with
  | zero => rfl
  | succ fuel ih =>
    funext ts
    rw [properties, separated]
    split
    · rfl
    · unfold readProperty
      rw [ih]
      cases propertyName ts with
      | error e => rfl
      | ok x =>
        obtain ⟨⟨name, alone⟩, us⟩ := x
        dsimp only [bind, Except.bind]
        split
        · cases expression (advance us) <;> rfl
        · split <;> rfl

end ScoreSheet.Rule
