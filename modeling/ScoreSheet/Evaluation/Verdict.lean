import ScoreSheet.Evaluation.Passes
set_option autoImplicit false

/-! A rule set may say when a game is won and when it is lost. A game that is both is
lost. Conditions cannot write. -/
namespace ScoreSheet

open Rule

inductive Verdict where
  | won | lost | undecided
deriving DecidableEq

def Verdict.name : Verdict → String
  | won => "won"
  | lost => "lost"
  | undecided => "undecided"

/-- Whether a condition holds; a missing one does not. -/
def holds (env : Environment) (limit : Nat) : Option Expr → Except EvaluationError Bool
  | none => .ok false
  | some e =>
    match evaluateTop env refuse limit e () with
    | .ok v _ => .ok v.truthy
    | .error f _ => .error ⟨f, none⟩

def judge (env : Environment) (limit : Nat) (win lose : Option Expr) :
    Except EvaluationError Verdict := do
  if ← holds env limit lose then .ok .lost
  else if ← holds env limit win then .ok .won
  else .ok .undecided

def verdict (ruleSet : RuleSet) (elements : List Element) (store : Store) (limits : Limits) :
    Except RuleError Verdict := do
  let functions ← (compileFunctions ruleSet.functions).mapError .compilation
  let win ← (compileCondition "winCondition" ruleSet.winCondition).mapError .compilation
  let lose ← (compileCondition "loseCondition" ruleSet.loseCondition).mapError .compilation
  (judge ⟨views elements store, functions⟩ limits.callDepth win lose).mapError .evaluation

end ScoreSheet
