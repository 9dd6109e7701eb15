import ScoreSheet.Rule.Function
import ScoreSheet.Rule.Operation
set_option autoImplicit false

/-! Rules read the views of a pass and write through a sink, which decides what
becomes of a write. Neither expressions nor statements can see what the sink has
done, so the same evaluator serves rules, conditions and the record of writes. -/
namespace ScoreSheet.Rule

/-- An evaluation that may write to `σ` or stop with a fault; writes made before
the fault remain. -/
abbrev Run (σ : Type) := EStateM Fault σ

abbrev Sink (σ : Type) := String → Patch → Run σ Unit

structure Environment where
  views : List View
  functions : Keyed Function

def Environment.elements (env : Environment) : Value := .array (env.views.map View.toValue)

variable {σ : Type}

def lift {α : Type} : Except Fault α → Run σ α
  | .ok x => pure x
  | .error f => throw f

def update (env : Environment) (sink : Sink σ) (id : String) (fields : Keyed Value) :
    Run σ Unit := do
  if env.views.any (·.id == id) then
    let patch ← lift (patchOf fields)
    sink id patch
  else throw (.unknownElement id)

def updateCall (env : Environment) (sink : Sink σ) : List Value → Run σ Value
  | .string id :: .object fields :: _ => do
    update env sink id fields
    pure .undefined
  | .string _ :: v :: _ => throw (.stateType v.typeName)
  | [.string _] => throw (.stateType Value.undefined.typeName)
  | v :: _ => throw (.idType v.typeName)
  | [] => throw .missingId

abbrev Locals := Keyed Value

abbrev Call (σ : Type) := String → List Value → Run σ Value

def lookUp (env : Environment) (locals : Locals) (name : String) : Except Fault Value :=
  match locals.get? name with
  | some v => .ok v
  | none => if name = "elements" then .ok env.elements else .error (.undefinedName name)

mutual

def evaluate (env : Environment) (call : Call σ) (locals : Locals) : Expr → Run σ Value
  | .literal v => pure v
  | .name n => lift (lookUp env locals n)
  | .array items => do
    let values ← evaluateItems env call locals items
    pure (.array values)
  | .object fields => do
    let values ← evaluateFields env call locals fields
    pure (.object (Keyed.ofList values))
  | .unary op e => do
    let v ← evaluate env call locals e
    pure (op.apply v)
  | .binary op e f => do
    let v ← evaluate env call locals e
    let w ← evaluate env call locals f
    lift (op.apply v w)
  | .logical op e f => do
    let v ← evaluate env call locals e
    if op.decides v then pure v else evaluate env call locals f
  | .conditional c e f => do
    let v ← evaluate env call locals c
    if v.truthy then evaluate env call locals e else evaluate env call locals f
  | .call function arguments => do
    let values ← evaluateItems env call locals arguments
    call function values
  | .member e name => do
    let v ← evaluate env call locals e
    lift (property v name)
  | .index e f => do
    let v ← evaluate env call locals e
    let w ← evaluate env call locals f
    lift (propertyAt v w)

def evaluateItems (env : Environment) (call : Call σ) (locals : Locals) :
    List (Item Expr) → Run σ (List Value)
  | [] => pure []
  | .one e :: rest => do
    let v ← evaluate env call locals e
    let values ← evaluateItems env call locals rest
    pure (v :: values)
  | .spread e :: rest => do
    let v ← evaluate env call locals e
    let spread ← lift (spreadItems v)
    let values ← evaluateItems env call locals rest
    pure (spread ++ values)

def evaluateFields (env : Environment) (call : Call σ) (locals : Locals) :
    List (String × Expr) → Run σ (List (String × Value))
  | [] => pure []
  | (name, e) :: rest => do
    let v ← evaluate env call locals e
    let values ← evaluateFields env call locals rest
    pure ((name, v) :: values)

end

/-- How a statement ends: the next one follows with the local names as they are
now, or the function returns. -/
inductive Flow where
  | next (locals : Locals)
  | returned (v : Value)

mutual

/-- Executes a statement. Local names belong to the whole function. -/
def execute (env : Environment) (call : Call σ) (locals : Locals) : Stmt → Run σ Flow
  | .expr e => do
    let _ ← evaluate env call locals e
    pure (.next locals)
  | .declare name e => do
    let v ← evaluate env call locals e
    pure (.next (locals.insert name v))
  | .assign name e => do
    let v ← evaluate env call locals e
    if (locals.get? name).isSome then pure (.next (locals.insert name v))
    else throw (.undefinedName name)
  | .branch c yes no => do
    let v ← evaluate env call locals c
    if v.truthy then executeAll env call locals yes
    else executeOptional env call locals no
  | .block body => executeAll env call locals body
  | .return none => pure (.returned .undefined)
  | .return (some e) => do
    let v ← evaluate env call locals e
    pure (.returned v)

def executeAll (env : Environment) (call : Call σ) (locals : Locals) :
    List Stmt → Run σ Flow
  | [] => pure (.next locals)
  | s :: rest => do
    match ← execute env call locals s with
    | .returned v => pure (.returned v)
    | .next locals => executeAll env call locals rest

def executeOptional (env : Environment) (call : Call σ) (locals : Locals) :
    Option (List Stmt) → Run σ Flow
  | none => pure (.next locals)
  | some body => executeAll env call locals body

end

def Parameters.bind (p : Parameters) (arguments : List Value) : Locals :=
  let named := p.names.zipIdx.foldl
    (fun locals (name, i) => Keyed.insert name ((arguments[i]?).getD .undefined) locals) []
  match p.rest with
  | some name => Keyed.insert name (.array (arguments.drop p.names.length)) named
  | none => named

def Flow.value : Flow → Value
  | .returned v => v
  | .next _ => .undefined

/-- Calls a function by its name; `enter` runs a custom one. Custom functions hide
built-in ones of their name. -/
def callNamed (env : Environment) (sink : Sink σ) (enter : Function → List Value → Run σ Value) :
    Call σ := fun name arguments =>
  if name = "updateState" then updateCall env sink arguments
  else
    match env.functions.get? name with
    | some f => enter f arguments
    | none =>
      match Aggregate.ofName? name with
      | some a => lift (a.apply env.views arguments)
      | none => throw (.undefinedName name)

/-- Calls a function where `room` more calls of custom functions may nest, out of
`limit` in all. -/
def invoke (env : Environment) (sink : Sink σ) (limit : Nat) : Nat → Call σ
  | 0 => callNamed env sink fun f _ => throw (.callDepth limit f.name)
  | room + 1 =>
    callNamed env sink fun f arguments => do
      let flow ← executeAll env (invoke env sink limit room) (f.parameters.bind arguments) f.body
      pure flow.value

def evaluateTop (env : Environment) (sink : Sink σ) (limit : Nat) (e : Expr) : Run σ Value :=
  evaluate env (invoke env sink limit limit) [] e

/-- Runs the rule of an element. An object is written to that element. -/
def runRule (env : Environment) (sink : Sink σ) (limit : Nat) (id : String) (rule : Expr) :
    Run σ Unit := do
  match ← evaluateTop env sink limit rule with
  | .object fields => update env sink id fields
  | .undefined => pure ()
  | v => throw (.resultType v.typeName)

def refuse : Sink σ := fun _ _ => throw .readOnly

end ScoreSheet.Rule
