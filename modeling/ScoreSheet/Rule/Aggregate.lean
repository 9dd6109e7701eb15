import ScoreSheet.State.View
set_option autoImplicit false

/-! Aggregates take element ids and look at the views of a pass. They skip
elements of other kinds, and count an element once however often it is named. -/
namespace ScoreSheet.Rule

/-- The views that ids name, in the order of the elements. -/
def selected (views : List View) (ids : List String) : List View :=
  views.filter fun v => ids.contains v.id

def isCheckbox (v : View) : Bool := v.kind == .checkbox

def isChecked (v : View) : Bool := isCheckbox v && v.value == some (.bool true)

def countChecked (views : List View) (ids : List String) : Nat :=
  (selected views ids).countP isChecked

/-- Whether all of the checkboxes are checked, which holds if there are none. -/
def allAreChecked (views : List View) (ids : List String) : Bool :=
  countChecked views ids == (selected views ids).countP isCheckbox

/-- The number that a view adds to a sum: text never counts, also not in an
options element. -/
def summand? (v : View) : Option Float :=
  match v.kind, v.value with
  | .number, some (.number x) => some x
  | .options, some (.number x) => some x
  | _, _ => none

/-- The sum of the numbers, added in the order of the elements. Only the negative zero
leaves every number as it is. -/
def sum (views : List View) (ids : List String) : Float :=
  ((selected views ids).filterMap summand?).foldl (· + ·) (-0.0)

inductive Aggregate where
  | countChecked | nAreChecked | nOrMoreAreChecked | nOrLessAreChecked
  | allAreChecked | sum
deriving DecidableEq

namespace Aggregate

def name : Aggregate → String
  | countChecked => "countChecked"
  | nAreChecked => "nAreChecked"
  | nOrMoreAreChecked => "nOrMoreAreChecked"
  | nOrLessAreChecked => "nOrLessAreChecked"
  | allAreChecked => "allAreChecked"
  | sum => "sum"

def all : List Aggregate :=
  [countChecked, nAreChecked, nOrMoreAreChecked, nOrLessAreChecked, allAreChecked, sum]

def ofName? (s : String) : Option Aggregate := all.find? (·.name == s)

end Aggregate

def isBuiltin (name : String) : Bool := (Aggregate.ofName? name).isSome

/-- The ids among the arguments: no other value can name an element. -/
def idsOf (arguments : List Value) : List String :=
  arguments.filterMap fun
    | .string s => some s
    | _ => none

end ScoreSheet.Rule
