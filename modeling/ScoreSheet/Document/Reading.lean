import ScoreSheet.Document.Decoding
import ScoreSheet.Json.Reader
import ScoreSheet.Text.Blank
import ScoreSheet.Yaml.Reader
set_option autoImplicit false

namespace ScoreSheet.Document

inductive ErrorClass where
  | syntaxError | typeMismatch | unknownVariant
deriving DecidableEq

inductive ParseError where
  | empty
  | malformed (e : Json.SyntaxError)
  | malformedBlocks (e : Yaml.Fault)
  | manyDocuments (line : Nat)
  | notObject
  | notMapping
  | notList
  | misshapen (e : ShapeError) (path : Option String)

def foldCase (c : Char) : Char :=
  if c = '\u212a' then 'k' else c.toLower

def occursIn (word : List Char) : List Char → Bool
  | [] => word.isEmpty
  | c :: cs => word.isPrefixOf (c :: cs) || occursIn word cs

/-- The class of an error by the words of its message, also where these come from
the document. -/
def classify (message : String) : ErrorClass :=
  let text := message.toList.map foldCase
  let mentions (word : String) : Bool := occursIn word.toList text
  if mentions "unknown variant" || mentions "unknown field" then .unknownVariant
  else if mentions "missing field" || mentions "invalid type" || mentions "invalid value" ||
      mentions "expected" then .typeMismatch
  else .syntaxError

namespace ParseError

def detail : ParseError → String
  | empty => "empty input"
  | malformed e => e.message
  | malformedBlocks e => e.message
  | manyDocuments _ => "multi-document YAML is not supported"
  | notObject => "sheet root must be a JSON object"
  | notMapping => "sheet root must be a YAML mapping"
  | notList => "saved state must be a JSON array"
  | misshapen e _ => e.message

def errorClass : ParseError → ErrorClass
  | empty | malformed _ | manyDocuments _ => .syntaxError
  | malformedBlocks e => classify e.message
  | notObject | notMapping | notList => .typeMismatch
  | misshapen e _ => classify e.message

def path : ParseError → Option String
  | misshapen _ path => path
  | _ => none

def line : ParseError → Option Nat
  | malformed e => some e.position.line
  | manyDocuments line => some line
  | _ => none

def column : ParseError → Option Nat
  | malformed e => some e.position.column
  | _ => none

def message (e : ParseError) : String :=
  match e.line, e.column with
  | some line, some column => s!"{line}:{column}: {e.detail}"
  | _, _ => e.detail

end ParseError

def isBlankText (text : String) : Bool := text.toList.all Text.isBlank

def firstBad? {α : Type} (decode : Decoder α) : Nat → List Json → Option Nat
  | _, [] => none
  | i, v :: vs => if (decode v).isOk then firstBad? decode (i + 1) vs else some i

def badElementPath? (document : Json) : Option String :=
  match document.member? "elements" with
  | some (.array items) => (firstBad? element 0 items).map fun i => s!"elements[{i}]"
  | _ => none

/-- The sheet that a document describes. An error in one of its elements, or beside
one, is reported with the path of the first bad element. -/
def sheetOf (document : Json) : Except ParseError Sheet :=
  (sheet document).mapError fun e => .misshapen e (badElementPath? document)

def parseJson (text : String) : Except ParseError Json :=
  if isBlankText text then .error .empty else (Json.parse text).mapError .malformed

def parseSheet (text : String) : Except ParseError Sheet := do
  match ← parseJson text with
  | .object members => sheetOf (.object members)
  | _ => .error .notObject

def isMarker (line : List Char) : Bool :=
  ['-', '-', '-'].isPrefixOf line && (line.drop 3).all Text.isBlank

def secondMarker? (n seen : Nat) : List (List Char) → Option Nat
  | [] => none
  | line :: rest =>
    if isMarker line then
      if seen = 0 then secondMarker? (n + 1) 1 rest else some n
    else secondMarker? (n + 1) seen rest

def parseYaml (text : String) : Except ParseError Sheet :=
  if isBlankText text then .error .empty
  else
    match secondMarker? 1 0 (text.toList.splitOn '\n') with
    | some line => .error (.manyDocuments line)
    | none =>
      match Yaml.parse text with
      | .error e => .error (.malformedBlocks e)
      | .ok (.object members) => sheetOf (.object members)
      | .ok _ => .error .notMapping

def parseStates (text : String) : Except ParseError (List Entry) := do
  match ← parseJson text with
  | .array items => (items.mapM entry).mapError fun e => .misshapen e none
  | _ => .error .notList

end ScoreSheet.Document
