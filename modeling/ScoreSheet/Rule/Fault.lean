import ScoreSheet.Rule.Token
set_option autoImplicit false

namespace ScoreSheet.Rule

inductive FaultKind where
  | reference | type | range | unknownElement | invalidValue
deriving DecidableEq

inductive Fault where
  | undefinedName (name : String)
  | notIterable (type : String)
  | noProperties (type property : String)
  | resultType (type : String)
  | missingCount (function : String)
  | missingId
  | idType (type : String)
  | stateType (type : String)
  | readOnly
  | divisionByZero
  | callDepth (limit : Nat) (function : String)
  | unknownElement (id : String)
  | notFinite (x : Float)
  | notStorable (type : String)
deriving DecidableEq

namespace Fault

def kind : Fault → FaultKind
  | undefinedName _ => .reference
  | notIterable _ | noProperties .. | resultType _ | missingCount _ | missingId | idType _
  | stateType _ | readOnly => .type
  | divisionByZero | callDepth .. => .range
  | unknownElement _ => .unknownElement
  | notFinite _ | notStorable _ => .invalidValue

def message : Fault → String
  | undefinedName name => s!"{name} is not defined"
  | notIterable type => s!"{type} is not iterable"
  | noProperties type property =>
    s!"cannot read properties of {type} (reading {inQuotes property})"
  | resultType type =>
    "rule must produce an object like \x7b value, disabled \x7d, got " ++ type
  | missingCount function => s!"{function} expects a count as first argument"
  | missingId => "updateState: missing id"
  | idType type => s!"updateState: id must be a string, got {type}"
  | stateType type => s!"updateState: state must be an object, got {type}"
  | readOnly => "updateState is not available in conditions"
  | divisionByZero => "division by zero"
  | callDepth limit function => s!"maximum call depth of {limit} exceeded in {function}"
  | unknownElement id => s!"updateState: no element with id {inQuotes id}"
  | notFinite x => s!"cannot store non-finite number {Number.display x}"
  | notStorable type => s!"cannot store a value of type {type}"

end Fault

structure EvaluationError where
  fault : Fault
  element : Option String
deriving DecidableEq

def EvaluationError.message (e : EvaluationError) : String :=
  match e.element with
  | some id => s!"rule of element {inQuotes id} failed: {e.fault.message}"
  | none => s!"rule failed: {e.fault.message}"

end ScoreSheet.Rule
