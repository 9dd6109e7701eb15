import ScoreSheet.Json.Basic
import ScoreSheet.Keyed
import ScoreSheet.Number.Numeral
set_option autoImplicit false

namespace ScoreSheet

inductive ElementKind where
  | number | checkbox | string | options
deriving DecidableEq

namespace ElementKind

def name : ElementKind → String
  | number => "number"
  | checkbox => "checkbox"
  | string => "string"
  | options => "options"

def all : List ElementKind := [number, checkbox, string, options]

def ofName? (s : String) : Option ElementKind := all.find? (·.name == s)

end ElementKind

inductive Datum where
  | bool (b : Bool)
  | number (x : Float)
  | text (s : String)

namespace Datum

/-- Equality of contents; numbers are compared as numbers. -/
protected def beq : Datum → Datum → Bool
  | bool a, bool b => a == b
  | number x, number y => x == y
  | text s, text t => s == t
  | _, _ => false

instance : BEq Datum := ⟨Datum.beq⟩

def display : Datum → String
  | bool b => if b then "true" else "false"
  | number x => Number.display x
  | text s => s

def bool? : Datum → Option Bool
  | bool b => some b
  | _ => none

def number? : Datum → Option Float
  | number x => some x
  | _ => none

def text? : Datum → Option String
  | text s => some s
  | _ => none

end Datum

structure Version where
  major : Nat
  minor : Nat
  patch : Nat
deriving DecidableEq

def Version.display (v : Version) : String := s!"{v.major}.{v.minor}.{v.patch}"

structure Point where
  x : Float
  y : Float

structure Size where
  width : Float
  height : Float

/-- A field of a sheet: a box around `center`, with one rule source for each rule
set that it takes part in. -/
structure Element where
  id : String
  kind : ElementKind
  center : Point
  size : Size
  options : Option (List Datum)
  rules : Keyed String

structure FunctionSource where
  parameters : String
  body : String
deriving DecidableEq

structure RuleSet where
  name : String
  functions : Keyed FunctionSource
  winCondition : Option String
  loseCondition : Option String

structure Sheet where
  name : String
  version : Version
  ruleSets : Option (List RuleSet)
  elements : List Element
  resources : Option (List Json)

namespace Sheet

/-- All rule sets, of which a sheet may declare no list at all. -/
def allRuleSets (sheet : Sheet) : List RuleSet := sheet.ruleSets.getD []

def ruleSet? (sheet : Sheet) (name : String) : Option RuleSet :=
  sheet.allRuleSets.find? (·.name == name)

def element? (sheet : Sheet) (id : String) : Option Element :=
  sheet.elements.find? (·.id == id)

end Sheet

end ScoreSheet
