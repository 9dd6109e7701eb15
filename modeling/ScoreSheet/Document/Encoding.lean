import ScoreSheet.Json.Printer
import ScoreSheet.State.Comparison
import ScoreSheet.Yaml.Printer
set_option autoImplicit false

/-! Fields are written in the order of their declaration; optional ones that are
missing and empty dictionaries are left out. -/
namespace ScoreSheet.Document

/-- Whole numbers of at most 53 bits are written without a fraction. -/
def ofDatum : Datum → Json
  | .bool b => .bool b
  | .number x =>
    match Number.toInt? x with
    | some n => if n.natAbs < Nat.pow 2 53 then .integer n else .real x
    | none => .real x
  | .text s => .string s

def optionalMember {α : Type} (name : String) (encode : α → Json) (x : Option α) :
    List (String × Json) :=
  (x.map fun x => (name, encode x)).toList

def dictionaryMember {α : Type} (name : String) (encode : α → Json) (entries : Keyed α) :
    List (String × Json) :=
  if entries.isEmpty then [] else [(name, .object (entries.map fun (k, x) => (k, encode x)))]

def listOf {α : Type} (encode : α → Json) (xs : List α) : Json := .array (xs.map encode)

def ofNat (n : Nat) : Json := .integer n

def ofVersion (v : Version) : Json :=
  .object [("major", ofNat v.major), ("minor", ofNat v.minor), ("patch", ofNat v.patch)]

def ofElement (e : Element) : Json :=
  .object
    ([("id", .string e.id),
      ("type", .string e.kind.name),
      ("position", .object [("x", .real e.center.x), ("y", .real e.center.y)]),
      ("size", .object [("width", .real e.size.width), ("height", .real e.size.height)])] ++
      optionalMember "options" (listOf ofDatum) e.options ++
      dictionaryMember "rules" .string e.rules)

def ofFunctionSource (f : FunctionSource) : Json :=
  .array [.string f.parameters, .string f.body]

def ofRuleSet (r : RuleSet) : Json :=
  .object
    (("name", .string r.name) ::
      (dictionaryMember "customFunctions" ofFunctionSource r.functions ++
        optionalMember "winCondition" .string r.winCondition ++
        optionalMember "loseCondition" .string r.loseCondition))

def ofSheet (s : Sheet) : Json :=
  .object
    ([("name", .string s.name), ("version", ofVersion s.version)] ++
      optionalMember "ruleSets" (listOf ofRuleSet) s.ruleSets ++
      [("elements", listOf ofElement s.elements)] ++
      optionalMember "res" .array s.resources)

def ofEntry (e : Entry) : Json :=
  .object
    (("id", .string e.id) ::
      (optionalMember "value" ofDatum e.value ++ optionalMember "disabled" .bool e.disabled))

def writeSheet (s : Sheet) : String := (ofSheet s).pretty

def writeYaml (s : Sheet) : String := Yaml.print (ofSheet s)

/-- The text in which a state is saved: only what is worth saving. -/
def writeStates (entries : List Entry) : String := (listOf ofEntry (prune entries)).compact

end ScoreSheet.Document
