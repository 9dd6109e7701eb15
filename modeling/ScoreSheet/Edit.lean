import ScoreSheet.Evaluation.Passes
import ScoreSheet.State.Comparison
set_option autoImplicit false

namespace ScoreSheet

open Rule

inductive EditOutcome where
  | missed
  | rejected (id : String)
  | cancelled (id : String)
  | updated (id : String) (rerender : Bool) (report : Option Report)

structure Question where
  element : Element
  current : Option Datum

/-- A result, or a question whose answer gives one. No answer means that the
question was dismissed. -/
inductive Interaction (α : Type) where
  | done (result : α)
  | ask (question : Question) (resume : Option String → α)

namespace Interaction

variable {α β : Type}

def map (f : α → β) : Interaction α → Interaction β
  | done x => done (f x)
  | ask q resume => ask q fun answer => f (resume answer)

def question? : Interaction α → Option Question
  | done _ => none
  | ask q _ => some q

def result (answer : Option String) : Interaction α → α
  | done x => x
  | ask _ resume => resume answer

end Interaction

/-- Whether the box of an element, scaled about the origin, contains a point. -/
def Element.contains (e : Element) (p : Point) (scale : Float) : Bool :=
  decide ((p.x - e.center.x * scale).abs ≤ e.size.width * scale / 2.0) &&
    decide ((p.y - e.center.y * scale).abs ≤ e.size.height * scale / 2.0)

def hitTest (elements : List Element) (p : Point) (scale : Float) : Option Element :=
  elements.find? (·.contains p scale)

/-- The value that an answer gives an element; no value clears it. -/
def Element.readAnswer (e : Element) (answer : String) : Option Datum :=
  match e.kind with
  | .number =>
    let x := numberOfText answer
    if answer.toList.all Text.isBlank || !Number.isFinite x then none else some (.number x)
  | .string => if answer.isEmpty then none else some (.text answer)
  | .options => (e.options.getD []).find? (·.display == answer)
  | .checkbox => some (.bool true)

structure EditContext where
  elements : List Element
  ruleSet : Option RuleSet
  limits : Limits

namespace EditContext

def evaluateActive (ctx : EditContext) : EStateM RuleError Store (Option Report) :=
  match ctx.ruleSet with
  | none => pure none
  | some r => do
    let report ← evaluate r ctx.elements ctx.limits
    pure (some report)

def applyEdit (ctx : EditContext) (id : String) (value : Option Datum) :
    EStateM RuleError Store EditOutcome := do
  let before ← get
  set (before.setValue id value).1
  let report ← ctx.evaluateActive
  let after ← get
  pure (.updated id (statesDiffer before.entries after.entries) report)

def setValue (ctx : EditContext) (e : Element) (value : Option Datum) :
    EStateM RuleError Store EditOutcome := do
  if (← get).isDisabled e.id then pure (.rejected e.id) else ctx.applyEdit e.id value

def click (ctx : EditContext) (p : Point) (scale : Float) (store : Store) :
    Interaction (EStateM.Result RuleError Store EditOutcome) :=
  match hitTest ctx.elements p scale with
  | none => .done (.ok .missed store)
  | some e =>
    if store.isDisabled e.id then .done (.ok (.rejected e.id) store)
    else if e.kind = .checkbox then
      let checked := store.value? e.id == some (.bool true)
      .done (ctx.applyEdit e.id (some (.bool !checked)) store)
    else
      .ask ⟨e, store.value? e.id⟩ fun
        | none => .ok (.cancelled e.id) store
        | some answer => ctx.applyEdit e.id (e.readAnswer answer) store

end EditContext

end ScoreSheet
