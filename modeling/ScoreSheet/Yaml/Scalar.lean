import ScoreSheet.Json.Basic
import ScoreSheet.Number.Numeral
import ScoreSheet.Text.Blank
import ScoreSheet.Text.Code
set_option autoImplicit false

namespace ScoreSheet.Yaml

def isNullWord (s : String) : Bool := s.isEmpty || s == "~" || s.toLower == "null"

def trueWords : List String := ["true", "yes", "y", "on"]

def falseWords : List String := ["false", "no", "n", "off"]

def splitBase : List Char → Nat × List Char
  | '0' :: c :: ds =>
    if c = 'x' || c = 'X' then (16, ds)
    else if c = 'o' || c = 'O' then (8, ds)
    else if c = 'b' || c = 'B' then (2, ds)
    else (10, '0' :: c :: ds)
  | ds => (10, ds)

def digitIn? (base : Nat) (c : Char) : Option Nat := (Text.hexValue? c).filter (· < base)

/-- The number that digits of a base spell. Underscores between them do not count. -/
def magnitude? (base : Nat) (cs : List Char) : Option Nat :=
  let ds := cs.filter (· != '_')
  if ds.isEmpty then none
  else ds.foldlM (fun n c => (digitIn? base c).map (n * base + ·)) 0

/-- Reads an integer that fits 64 bits: with a sign if it is negative, without one
if not. -/
def integer? (cs : List Char) : Option Int :=
  let (negative, body) := Number.unsigned cs
  let (base, ds) := splitBase body
  (magnitude? base ds).bind fun n =>
    if negative then if n ≤ Nat.pow 2 63 then some (-(n : Int)) else none
    else if n < Nat.pow 2 64 then some (n : Int) else none

/-- The text that stands for an infinite number, which no JSON number is. -/
def infinityText (negative : Bool) : String := if negative then "-.inf" else ".inf"

def boundless? (cs : List Char) : Option String :=
  let (negative, body) := Number.unsigned cs
  let word := (String.ofList body).toLower
  if ["nan", ".nan"].contains word then some ".nan"
  else if ["inf", "infinity", ".inf"].contains word then some (infinityText negative)
  else none

def decimal? (cs : List Char) : Option Json :=
  (Number.read? cs).map fun x =>
    if Number.isFinite x then .real x else .string (infinityText (x < 0))

/-- The value of a plain scalar. Blanks around a boolean or a number do not count. -/
def resolve (s : String) : Json :=
  let cs := Text.trim s.toList
  let word := (String.ofList cs).toLower
  if isNullWord s then .null
  else if trueWords.contains word then .bool true
  else if falseWords.contains word then .bool false
  else
    ((integer? cs).map Json.integer).getD <|
      ((boundless? cs).map Json.string).getD <| (decimal? cs).getD (.string s)

def startsAsNumber (cs : List Char) : Bool :=
  ((Number.unsigned cs).2.head?.map fun c => Number.isDigit c || c == '.').getD false

/-- Whether a text without quotes looks like something other than a text. An underscore
in front of the digits makes a number look like a text. -/
def isAmbiguous (s : String) : Bool :=
  let cs := Text.trim s.toList
  match resolve s with
  | .string _ => (boundless? cs).isSome || (decimal? cs).isSome
  | .integer _ => startsAsNumber cs
  | _ => true

end ScoreSheet.Yaml
