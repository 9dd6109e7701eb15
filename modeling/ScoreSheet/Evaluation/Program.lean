import ScoreSheet.Rule.Evaluation
set_option autoImplicit false

namespace ScoreSheet

open Rule

structure Limits where
  /-- Passes allowed after the first one. -/
  reruns : Nat
  /-- Calls of custom functions that may nest. -/
  callDepth : Nat
deriving DecidableEq

def Limits.default : Limits := ⟨50, 64⟩

inductive RuleError where
  | compilation (e : CompilationError)
  | evaluation (e : EvaluationError)
deriving DecidableEq

namespace RuleError

def cause : RuleError → String
  | compilation e => e.message
  | evaluation e => e.message

def message : RuleError → String
  | compilation e => s!"Compilation error: {e.message}"
  | evaluation e => s!"Evaluation error: {e.message}"

end RuleError

structure Program where
  name : String
  functions : Keyed Function
  rules : List (String × Expr)

namespace Program

/-- The rule of an element in a rule set, if it has one that is not blank. -/
def ruleOf? (ruleSet : String) (e : Element) :
    Except CompilationError (Option (String × Expr)) :=
  match e.rules.get? ruleSet with
  | none => .ok none
  | some source => (compileRule e.id source).map (·.map (e.id, ·))

def rulesOf (ruleSet : String) : List Element → Except CompilationError (List (String × Expr))
  | [] => .ok []
  | e :: es => do
    let rule ← ruleOf? ruleSet e
    let rules ← rulesOf ruleSet es
    .ok (rule.toList ++ rules)

def compile (ruleSet : RuleSet) (elements : List Element) : Except CompilationError Program := do
  let functions ← compileFunctions ruleSet.functions
  let rules ← rulesOf ruleSet.name elements
  .ok ⟨ruleSet.name, functions, rules⟩

end Program

end ScoreSheet
