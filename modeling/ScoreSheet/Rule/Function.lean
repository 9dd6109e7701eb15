import ScoreSheet.Rule.Parser
import ScoreSheet.Sheet.Basic
set_option autoImplicit false

namespace ScoreSheet.Rule

structure Function where
  name : String
  parameters : Parameters
  body : List Stmt

namespace Function

def arity (f : Function) : Nat := f.parameters.names.length

def hasRest (f : Function) : Bool := f.parameters.rest.isSome

end Function

inductive CompilationFault where
  | invalidName
  | reservedName
  | duplicateParameter (parameter : String)
  | parameterList (e : SyntaxError)
  | functionBody (e : SyntaxError)
  | rule (e : SyntaxError)
  | condition (e : SyntaxError)
deriving DecidableEq

structure CompilationError where
  fault : CompilationFault
  name : String
deriving DecidableEq

namespace CompilationError

def syntaxError? (e : CompilationError) : Option SyntaxError :=
  match e.fault with
  | .parameterList s | .functionBody s | .rule s | .condition s => some s
  | _ => none

def detail (e : CompilationError) : String :=
  match e.fault with
  | .invalidName => "function name must be an identifier"
  | .reservedName => s!"{inQuotes e.name} is reserved by the evaluation context"
  | .duplicateParameter p => s!"parameter {inQuotes p} is declared twice"
  | .parameterList s | .functionBody s | .rule s | .condition s => s.fault.message

def subject (e : CompilationError) : String :=
  match e.fault with
  | .invalidName | .reservedName => "function"
  | .duplicateParameter _ => "parameters of function"
  | .parameterList _ => "argument list of function"
  | .functionBody _ => "body of function"
  | .rule _ => "rule of element"
  | .condition _ => "condition"

def place (e : CompilationError) : String :=
  match e.syntaxError? with
  | some s => s!" ({s.position.line}:{s.position.column})"
  | none => ""

def message (e : CompilationError) : String :=
  s!"cannot compile {e.subject} {inQuotes e.name}{e.place}: {e.detail}"

end CompilationError

def reservedNames : List String := ["updateState", "elements"]

def isIdentifier (s : String) : Bool :=
  match s.toList with
  | c :: cs => isNameStart c && cs.all isNameChar
  | [] => false

def firstRepeated? : List String → List String → Option String
  | _, [] => none
  | seen, s :: rest => if seen.contains s then some s else firstRepeated? (s :: seen) rest

def compileFunction (name : String) (source : FunctionSource) :
    Except CompilationError Function :=
  if !isIdentifier name then .error ⟨.invalidName, name⟩
  else if reservedNames.contains name then .error ⟨.reservedName, name⟩
  else
    match parseParameters source.parameters with
    | .error e => .error ⟨.parameterList e, name⟩
    | .ok parameters =>
      match firstRepeated? [] parameters.all with
      | some p => .error ⟨.duplicateParameter p, name⟩
      | none =>
        match parseBody source.body with
        | .error e => .error ⟨.functionBody e, name⟩
        | .ok body => .ok ⟨name, parameters, body⟩

def compileFunctions (functions : Keyed FunctionSource) :
    Except CompilationError (Keyed Function) :=
  functions.mapM fun (name, source) => (compileFunction name source).map (name, ·)

/-- Compiles the rule of an element; a text without a token is no rule. -/
def compileRule (id source : String) : Except CompilationError (Option Expr) :=
  (parseRule source).mapError fun e => ⟨.rule e, id⟩

def compileCondition (name : String) (source : Option String) :
    Except CompilationError (Option Expr) :=
  match source with
  | none => .ok none
  | some text => (parseRule text).mapError fun e => ⟨.condition e, name⟩

end ScoreSheet.Rule
