import ScoreSheet.Keyed
import ScoreSheet.Number.Numeral
import ScoreSheet.Text.Blank
set_option autoImplicit false

/-! Seven kinds of value and their conversions. The fields of an object are in
ascending order of their names, so equal objects have equal field lists. -/
namespace ScoreSheet.Rule

inductive Value where
  | undefined
  | null
  | bool (b : Bool)
  | number (x : Float)
  | string (s : String)
  | array (items : List Value)
  | object (fields : List (String × Value))
deriving Inhabited

/-- The number that a text stands for: trimmed, empty text is zero and text that
is no numeral is not a number. -/
def numberOfText (s : String) : Float :=
  match Text.trim s.toList with
  | [] => 0.0
  | cs =>
    if cs = "Infinity".toList ∨ cs = "+Infinity".toList then Number.infinity
    else if cs = "-Infinity".toList then -Number.infinity
    else (Number.read? cs).getD Number.nan

namespace Value

def typeName : Value → String
  | undefined => "undefined"
  | null => "null"
  | bool _ => "boolean"
  | number _ => "number"
  | string _ => "string"
  | array _ => "array"
  | object _ => "object"

def isNullish : Value → Bool
  | undefined | null => true
  | _ => false

def truthy : Value → Bool
  | undefined | null => false
  | bool b => b
  | number x => !(x == 0.0) && !x.isNaN
  | string s => !s.isEmpty
  | array _ | object _ => true

mutual

/-- Composite values have no number, except that an empty array is zero and an
array of one item is that item. -/
def toNumber : Value → Float
  | undefined => Number.nan
  | null => 0.0
  | bool b => if b then 1.0 else 0.0
  | number x => x
  | string s => numberOfText s
  | array items => itemsToNumber items
  | object _ => Number.nan

def itemsToNumber : List Value → Float
  | [] => 0.0
  | [v] => v.toNumber
  | _ :: _ :: _ => Number.nan

end

mutual

/-- Equality without conversion; arrays and objects are compared by content. -/
def strictEquals : Value → Value → Bool
  | undefined, undefined => true
  | null, null => true
  | bool a, bool b => a == b
  | number a, number b => a == b
  | string a, string b => a == b
  | array a, array b => itemsEqual a b
  | object a, object b => fieldsEqual a b
  | _, _ => false

def itemsEqual : List Value → List Value → Bool
  | [], [] => true
  | v :: a, w :: b => v.strictEquals w && itemsEqual a b
  | _, _ => false

def fieldsEqual : List (String × Value) → List (String × Value) → Bool
  | [], [] => true
  | (n, v) :: a, (m, w) :: b => n == m && v.strictEquals w && fieldsEqual a b
  | _, _ => false

end

/-- Equality that compares a number with a text, and a boolean with anything, by
their numbers. -/
def looseEquals (v w : Value) : Bool :=
  if v.isNullish || w.isNullish then v.isNullish && w.isNullish
  else
    match v, w with
    | number _, string _ | string _, number _ | bool _, _ | _, bool _ =>
      v.toNumber == w.toNumber
    | _, _ => v.strictEquals w

mutual

/-- The text of a value. An array is its items separated by commas, with nothing
for an item that is `undefined` or `null`. -/
def display : Value → String
  | undefined => "undefined"
  | null => "null"
  | bool b => if b then "true" else "false"
  | number x => Number.display x
  | string s => s
  | array items => displayItems items
  | object _ => "[object Object]"

def displayItems : List Value → String
  | [] => ""
  | [v] => if v.isNullish then "" else v.display
  | v :: w :: rest => (if v.isNullish then "" else v.display) ++ "," ++ displayItems (w :: rest)

end

end Value

end ScoreSheet.Rule
