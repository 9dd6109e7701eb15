import ScoreSheet.Evaluation.Program
import ScoreSheet.Warning
set_option autoImplicit false

/-! One pass takes the views of all elements and runs every rule in order. Writes go
to the store at once, but no rule of the pass sees them. Passes are repeated until
one changes nothing or no rerun is left. -/
namespace ScoreSheet

open Rule

structure Report where
  changed : Bool
  passes : Nat
  exhausted : Bool
  warnings : List Warning
deriving DecidableEq

/-- What passes came to that were repeated until one changed nothing or none was left: whether
any of them changed the store, how many they were, and whether the last one still changed it. -/
structure Rounds where
  changed : Bool
  passes : Nat
  exhausted : Bool

def Report.idle : Report := ⟨false, 0, false, []⟩

def storeSink : Sink (Store × Bool) := fun id patch state =>
  let (store, changed) := state.1.apply id patch
  .ok () (store, state.2 || changed)

namespace Program

def environment (p : Program) (elements : List Element) (store : Store) : Environment :=
  ⟨views elements store, p.functions⟩

def runRules {σ : Type} (env : Environment) (sink : Sink σ) (limit : Nat) :
    List (String × Expr) → EStateM EvaluationError σ Unit
  | [] => pure ()
  | (id, rule) :: rules => do
    (runRule env sink limit id rule).adaptExcept fun f => ⟨f, some id⟩
    runRules env sink limit rules

def pass (p : Program) (elements : List Element) (limit : Nat) :
    EStateM EvaluationError Store Bool := fun store =>
  match runRules (p.environment elements store) storeSink limit p.rules (store, false) with
  | .ok _ (store, changed) => .ok changed store
  | .error e (store, _) => .error e store

def settle (p : Program) (elements : List Element) (limit : Nat) :
    Nat → EStateM EvaluationError Store Rounds
  | 0 => do
    let changed ← p.pass elements limit
    pure ⟨changed, 1, changed⟩
  | reruns + 1 => do
    let changed ← p.pass elements limit
    if changed then
      let later ← settle p elements limit reruns
      pure ⟨changed || later.changed, later.passes + 1, later.exhausted⟩
    else pure ⟨changed, 1, false⟩

def run (p : Program) (elements : List Element) (limits : Limits) :
    EStateM EvaluationError Store Report := do
  let rounds ← p.settle elements limits.callDepth limits.reruns
  let warnings := if rounds.exhausted then [Warning.unsettled p.name rounds.passes] else []
  pure ⟨rounds.changed, rounds.passes, rounds.exhausted, warnings⟩

end Program

/-- Evaluates a rule set on a store. A failure to compile leaves the store alone; a
fault of a rule keeps the writes made before it. -/
def evaluate (ruleSet : RuleSet) (elements : List Element) (limits : Limits) :
    EStateM RuleError Store Report :=
  match Program.compile ruleSet elements with
  | .error e => throw (.compilation e)
  | .ok p => (p.run elements limits).adaptExcept .evaluation

end ScoreSheet
