import ScoreSheet.Json.Printer
import ScoreSheet.Yaml.Scalar
set_option autoImplicit false

/-! Mappings and sequences in block style, indented by two spaces for each level. A
text is quoted where it would read back as something else or hold a sign of the
format; a text of several lines becomes a literal block, a long line a folded one. -/
namespace ScoreSheet.Yaml

def startSigns : List Char := "?:[]\x7b\x7d#&*!|>'\"%@`,".toList

def isControl (c : Char) : Bool := c.toNat < 0x20 || 0x7f ≤ c.toNat && c.toNat ≤ 0x9f

def startsAsItem : List Char → Bool
  | '-' :: rest => rest.isEmpty || rest.head? == some ' '
  | _ => false

def isPlain (signs : List Char) (s : String) : Bool :=
  let cs := s.toList
  !isAmbiguous s && !startSigns.contains (cs.headD ' ') && !startsAsItem cs &&
    cs.head? != some ' ' &&
    cs.getLast? != some ' ' && cs.getLast? != some ':' &&
    !cs.any (fun c => signs.contains c || isControl c) &&
    !(cs.zip (cs.drop 1)).any (· == (':', ' '))

def keySigns : List Char := [':', '#', ',', '[', ']', '\x7b', '\x7d']

/-- Values never stand between brackets, so that their signs need no quotes. -/
def valueSigns : List Char := ['#']

def hexCode (length n : Nat) : List Char :=
  let ds := (Nat.toDigits 16 n).map Char.toUpper
  List.replicate (length - ds.length) '0' ++ ds

def escapeChar (c : Char) : List Char :=
  if c = '"' then ['\\', '"']
  else if c = '\\' then ['\\', '\\']
  else if c = '\x00' then ['\\', '0']
  else if c = '\x07' then ['\\', 'a']
  else if c = '\x08' then ['\\', 'b']
  else if c = '\t' then ['\\', 't']
  else if c = '\n' then ['\\', 'n']
  else if c = '\x0b' then ['\\', 'v']
  else if c = '\x0c' then ['\\', 'f']
  else if c = '\r' then ['\\', 'r']
  else if c = '\x1b' then ['\\', 'e']
  else if c = '\u0085' then ['\\', 'N']
  else if c = '\u2028' then ['\\', 'L']
  else if c = '\u2029' then ['\\', 'P']
  else if c = '\ufeff' then ['\\', 'u', 'F', 'E', 'F', 'F']
  else if isControl c then '\\' :: 'x' :: hexCode 2 c.toNat
  else [c]

def quote (s : String) : String :=
  .ofList ('"' :: s.toList.flatMap escapeChar ++ ['"'])

def keyText (s : String) : String := if isPlain keySigns s then s else quote s

def lines (cs : List Char) : List (List Char) :=
  cs.foldr (fun c ls =>
    if c = '\n' then [] :: ls
    else
      match ls with
      | l :: rest => (c :: l) :: rest
      | [] => [[c]]) [[]]

/-- Whether a text is written as a literal block: several lines without any other
control character than tabs. -/
def isLiteral (s : String) : Bool :=
  let cs := s.toList
  let content := cs.dropWhile (· == '\n')
  cs.contains '\n' && !content.isEmpty && content.head? != some ' ' &&
    !cs.any fun c => c != '\n' && c != '\t' && isControl c

def literal (depth : Nat) (s : String) : List String :=
  let cs := s.toList
  let trailing := (cs.reverse.takeWhile (· == '\n')).length
  let sign := if trailing = 0 then "|-" else if trailing = 1 then "|" else "|+"
  let body := if trailing = 0 then cs else cs.dropLast
  sign :: (lines body).map fun l => Json.indent depth ++ .ofList l

def maxWidth : Nat := 80

/-- Fills lines with the words behind `line`. A line ends only at a blank that has no
other blank beside it, since only such a blank is read back from a line break. -/
def fill (line : List Char) : List (List Char) → List (List Char)
  | [] => [line]
  | word :: rest =>
    let longer := line ++ ' ' :: word
    if longer.length ≤ maxWidth || word.isEmpty || line.getLast? == some ' ' then fill longer rest
    else line :: fill word rest

def foldedBlock (depth : Nat) (s : String) : List String :=
  let filled :=
    match s.toList.splitOn ' ' with
    | [] => []
    | word :: rest => fill word rest
  ">-" :: filled.map fun l => Json.indent depth ++ .ofList l

/-- How a text is written as a value: between single quotes if it is one of three signs
alone, in a block if it has several lines or a long one, without quotes if it can be. -/
def textLines (depth : Nat) (s : String) : List String :=
  if [".", "#", "-"].contains s then ["\x27" ++ s ++ "\x27"]
  else if isLiteral s then literal depth s
  else if !isPlain valueSigns s then [quote s]
  else if maxWidth < s.length then foldedBlock depth s
  else [s]

/-- Numbers keep a place behind the point. -/
def realText (x : Float) : String :=
  let cs := (Json.realText x).toList
  let mantissa := cs.takeWhile (· != 'e')
  .ofList (if mantissa.contains '.' then cs else mantissa ++ ['.', '0'] ++ cs.drop mantissa.length)

def scalarLines (depth : Nat) : Json → List String
  | .null => ["null"]
  | .bool b => [if b then "true" else "false"]
  | .integer n => [toString n]
  | .real x => [realText x]
  | .string s => textLines depth s
  | .array _ => ["[]"]
  | .object _ => ["\x7b\x7d"]

def hang (first : String) (depth : Nat) : List String → List String
  | [] => [first]
  | l :: ls => (first ++ l) :: ls.map (Json.indent depth ++ ·)

mutual

def collection : Json → List String
  | .array items => sequenceLines items
  | .object members => mappingLines members
  | _ => []

def sequenceLines : List Json → List String
  | [] => []
  | v :: rest => sequenceItem v ++ sequenceLines rest

def sequenceItem : Json → List String
  | .array [] => ["- []"]
  | .object [] => ["- \x7b\x7d"]
  | .array (v :: vs) => hang "- " 1 (sequenceLines (v :: vs))
  | .object (m :: ms) => hang "- " 1 (mappingLines (m :: ms))
  | v => hang "- " 0 (scalarLines 1 v)

def mappingLines : List (String × Json) → List String
  | [] => []
  | (k, v) :: rest => memberLines k v ++ mappingLines rest

def memberLines (key : String) : Json → List String
  | .array [] => [keyText key ++ ":", Json.indent 1 ++ "[]"]
  | .object [] => [keyText key ++ ": \x7b\x7d"]
  | .array (v :: vs) => (keyText key ++ ":") :: (sequenceLines (v :: vs)).map (Json.indent 1 ++ ·)
  | .object (m :: ms) => (keyText key ++ ":") :: (mappingLines (m :: ms)).map (Json.indent 1 ++ ·)
  | v => hang (keyText key ++ ": ") 0 (scalarLines 1 v)

end

def print (v : Json) : String :=
  String.join ((collection v).map (· ++ "\n"))

end ScoreSheet.Yaml
