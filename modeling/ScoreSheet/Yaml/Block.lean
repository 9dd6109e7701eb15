import ScoreSheet.Number.Numeral
import ScoreSheet.Yaml.Source
set_option autoImplicit false

/-! A block scalar is a header of one line, then all lines that are indented enough. A
literal block keeps its line breaks; in a folded one a line break between two lines
without blanks in front is a blank. -/
namespace ScoreSheet.Yaml

inductive Chomping where
  | strip | clip | keep
deriving DecidableEq

/-- What stands behind the sign of a block scalar: the fate of its last line breaks
and its indentation, relative to what is around it. -/
structure BlockHeader where
  chomping : Chomping
  indent : Option Nat
deriving DecidableEq

def chomping? : List Char → Option Chomping
  | '-' :: _ => some .strip
  | '+' :: _ => some .keep
  | _ => none

def digit? : List Char → Option Nat
  | c :: _ => if Number.isDigit c then some (Number.digitValue c) else none
  | [] => none

/-- Reads a header: a sign and a digit, in any order and both optional. Also says how
many characters it takes. -/
def readHeader (cs : List Char) : Except Fault (BlockHeader × Nat) :=
  let header (chomping : Chomping) (indent : Option Nat) (n : Nat) :=
    if indent = some 0 then .error .zeroIndent else .ok (⟨chomping, indent⟩, n)
  match chomping? cs, digit? cs with
  | some chomping, _ =>
    let indent := digit? (cs.drop 1)
    header chomping indent (if indent.isSome then 2 else 1)
  | none, some indent =>
    match chomping? (cs.drop 1) with
    | some chomping => header chomping (some indent) 2
    | none => header .clip (some indent) 1
  | none, none => header .clip none 0

namespace Source

def passIndent (indent : Nat) : Nat → Nat → Source → Nat × Source
  | 0, breaks, s => (breaks, s)
  | fuel + 1, breaks, s =>
    let spaces := ((s.rest.takeWhile (· == ' ')).take (indent - s.column)).length
    let s := s.skip spaces
    if s.startsWith isBreak then passIndent indent fuel (breaks + 1) s.takeBreak
    else (breaks, s)

/-- Passes spaces and empty lines. Counts the line breaks and finds the largest
column before the first content. -/
def passEmptyLines : Nat → Nat → Nat → Source → Nat × Nat × Source
  | 0, breaks, largest, s => (breaks, largest, s)
  | fuel + 1, breaks, largest, s =>
    let s := s.skip (s.rest.takeWhile (· == ' ')).length
    let largest := max largest s.column
    if s.startsWith isBreak then passEmptyLines fuel (breaks + 1) largest s.takeBreak
    else (breaks, largest, s)

end Source

def breaks (n : Nat) : List Char := List.replicate n '\n'

/-- The lines of a block that have been read. `text` has the last character first;
`leading` and `trailing` count the line breaks behind it. -/
structure BlockText where
  text : List Char
  leading : Nat
  trailing : Nat
  afterBlank : Bool

namespace BlockText

def add (b : BlockText) (isFolded : Bool) (line : List Char) : BlockText :=
  let startsBlank := (line.head?.map isBlank).getD false
  let gap :=
    if isFolded && 0 < b.leading && !b.afterBlank && !startsBlank then
      if b.trailing = 0 then [' '] else breaks b.trailing
    else breaks (b.leading + b.trailing)
  ⟨line.reverse ++ (gap ++ b.text), 0, 0, startsBlank⟩

def readLines (isFolded : Bool) (indent : Nat) : Nat → BlockText → Source → BlockText × Source
  | 0, b, s => (b, s)
  | fuel + 1, b, s =>
    if s.column != indent || s.rest.isEmpty || indent == 0 && s.atMarker then (b, s)
    else
      let line := s.restOfLine
      let b := b.add isFolded line
      let s := s.take line.length
      if s.rest.isEmpty then (b, s)
      else
        let (trailing, s) := s.takeBreak.passIndent indent (s.size + 1) 0
        readLines isFolded indent fuel { b with leading := 1, trailing := trailing } s

/-- The text of a block. A last line without a line break counts as if it had one. -/
def finish (b : BlockText) (chomping : Chomping) (indent : Nat) (s : Source) : List Char :=
  let last := if s.rest.isEmpty && decide (max indent 1 ≤ s.column) then 1 else 0
  match chomping with
  | .strip => b.text.reverse
  | .clip => b.text.reverse ++ breaks (b.leading + last)
  | .keep => b.text.reverse ++ breaks (b.leading + last + b.trailing)

end BlockText

def emptyBlock (chomping : Chomping) (headerBreaks trailing : Nat) : List Char :=
  match chomping with
  | .strip => []
  | .clip => breaks headerBreaks
  | .keep => breaks (if trailing = 0 then headerBreaks else trailing)

/-- Goes to the first content of a block. Also finds the indentation of the block and
counts the empty lines. -/
def blockStart (outer : Int) (s : Source) : Option Nat → Nat × Nat × Source
  | some n =>
    let indent := if 0 ≤ outer then (outer + n).toNat else n
    (indent, s.passIndent indent (s.size + 1) 0)
  | none =>
    let (trailing, largest, s) := s.passEmptyLines (s.size + 1) 0 0
    let indent := max largest (outer + 1).toNat
    (if 0 < outer then max indent 1 else indent, trailing, s)

def readBlock (isFolded : Bool) (outer : Int) (s : Source) :
    Except Fault (List Char × Source) := do
  let (header, n) ← readHeader (s.rest.drop 1)
  let behind ← (s.take (1 + n)).passLine .contentBehindHeader
  let body := if behind.rest.isEmpty then behind else behind.takeBreak
  if body.startsWith (· == '\t') then .error .tabBeforeBlock
  else
    let (indent, trailing, first) := blockStart outer body header.indent
    if first.rest.isEmpty then
      .ok (if first.line = s.line then [] else emptyBlock header.chomping 1 trailing, first)
    else if first.column < indent ∧ outer < (first.column : Int) then .error .unevenBlock
    else
      let (b, last) :=
        BlockText.readLines isFolded indent (first.size + 1) ⟨[], 0, trailing, false⟩ first
      .ok (b.finish header.chomping indent last, last)

end ScoreSheet.Yaml
