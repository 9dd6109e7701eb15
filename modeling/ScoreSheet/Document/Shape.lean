import ScoreSheet.Json.Printer
import ScoreSheet.Text.Quoted
set_option autoImplicit false

/-! Records are written as objects or as lists of their fields. The fields of an
object are checked in the order of the document, and only then are missing ones
reported, in the order of the form. -/
namespace ScoreSheet.Document

inductive Expectation where
  | string | boolean | natural | number | sequence | mapping | kind | unit
  | record (name : String)
  | pair (name : String)
deriving DecidableEq

def Expectation.describe : Expectation → String
  | string => "a string"
  | boolean => "a boolean"
  | natural => "u32"
  | number => "f64"
  | sequence => "a sequence"
  | mapping => "a map"
  | kind => "string or map"
  | unit => "unit"
  | record name => s!"struct {name}"
  | pair name => s!"tuple struct {name}"

inductive ShapeError where
  | mismatch (found : Json) (wanted : Expectation)
  | outOfRange (n : Int) (wanted : Expectation)
  | notOneKey
  | unknownKind (name : String)
  | missing (field : String)
  | tooFew (count : Nat) (wanted : Expectation) (size : Nat)
  | tooMany (count : Nat)
  | noDatum (found : Json)

def describe : Json → String
  | .null => "null"
  | .bool b => if b then "boolean `true`" else "boolean `false`"
  | .integer n => s!"integer `{n}`"
  | .real x => s!"floating point `{Json.realText x}`"
  | .string s => s!"string {Text.quoted s}"
  | .array _ => "sequence"
  | .object _ => "map"

def ShapeError.message : ShapeError → String
  | mismatch found wanted => s!"invalid type: {describe found}, expected {wanted.describe}"
  | outOfRange n wanted => s!"invalid value: integer `{n}`, expected {wanted.describe}"
  | notOneKey => "invalid value: map, expected map with a single key"
  | unknownKind name =>
    s!"unknown variant `{name}`, expected one of `number`, `checkbox`, `string`, `options`"
  | missing field => s!"missing field `{field}`"
  | tooFew count wanted size =>
    s!"invalid length {count}, expected {wanted.describe} with {size} elements"
  | tooMany count => s!"invalid length {count}, expected fewer elements in array"
  | noDatum found =>
    s!"state value must be a string, number or boolean, got {found.compact}"

abbrev Decoder (α : Type) := Json → Except ShapeError α

def string : Decoder String
  | .string s => .ok s
  | v => .error (.mismatch v .string)

def boolean : Decoder Bool
  | .bool b => .ok b
  | v => .error (.mismatch v .boolean)

def natural : Decoder Nat
  | .integer n =>
    if 0 ≤ n ∧ n.toNat < Nat.pow 2 32 then .ok n.toNat else .error (.outOfRange n .natural)
  | v => .error (.mismatch v .natural)

def number : Decoder Float
  | .integer n => .ok (Float.ofInt n)
  | .real x => .ok x
  | v => .error (.mismatch v .number)

def sequence {α : Type} (decode : Decoder α) : Decoder (List α)
  | .array items => items.mapM decode
  | v => .error (.mismatch v .sequence)

def mapping {α : Type} (decode : Decoder α) : Decoder (List (String × α))
  | .object members => members.mapM fun (key, v) => (decode v).map (key, ·)
  | v => .error (.mismatch v .mapping)

def nullable {α : Type} (decode : Decoder α) : Decoder (Option α)
  | .null => .ok none
  | v => (decode v).map some

/-- When a field may be missing: in objects only, or also at the end of a list. -/
inductive Presence where
  | required | optional | defaulted
deriving DecidableEq

structure Field where
  name : String
  presence : Presence
  check : Decoder Unit

structure Form where
  name : Expectation
  fields : List Field

def field {α : Type} (name : String) (presence : Presence) (decode : Decoder α) : Field :=
  ⟨name, presence, fun v => (decode v).map fun _ => ()⟩

abbrev Members := List (String × Json)

/-- Checks the members of an object in their order; unknown ones are ignored. -/
def checkMembers (fields : List Field) : Members → Except ShapeError Unit
  | [] => .ok ()
  | (key, v) :: rest => do
    match fields.find? (·.name == key) with
    | some f => f.check v
    | none => .ok ()
    checkMembers fields rest

def pairItems (form : Form) (count : Nat) : List Field → List Json → Except ShapeError Members
  | [], [] => .ok []
  | [], rest => .error (.tooMany (count + rest.length))
  | f :: fs, [] =>
    if f.presence = .defaulted then pairItems form (count + 1) fs []
    else .error (.tooFew count form.name form.fields.length)
  | f :: fs, v :: vs => do
    f.check v
    let rest ← pairItems form (count + 1) fs vs
    .ok ((f.name, v) :: rest)

def Form.members (form : Form) : Decoder Members
  | .object members => (checkMembers form.fields members).map fun _ => members
  | .array items => pairItems form 0 form.fields items
  | v => .error (.mismatch v form.name)

def required {α : Type} (members : Members) (name : String) (decode : Decoder α) :
    Except ShapeError α :=
  match members.lookup name with
  | some v => decode v
  | none => .error (.missing name)

/-- A field that may be missing or `null`. -/
def optional {α : Type} (members : Members) (name : String) (decode : Decoder α) :
    Except ShapeError (Option α) :=
  match members.lookup name with
  | some v => nullable decode v
  | none => .ok none

/-- A field that may be missing but not `null`. -/
def withDefault {α : Type} (members : Members) (name : String) (decode : Decoder α)
    (default : α) : Except ShapeError α :=
  match members.lookup name with
  | some v => decode v
  | none => .ok default

end ScoreSheet.Document
