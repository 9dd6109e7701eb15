import ScoreSheet.Yaml.Block
import ScoreSheet.Yaml.Plain
import ScoreSheet.Yaml.Quoted
import ScoreSheet.Yaml.Token
set_option autoImplicit false

/-! A key is known only by the colon behind it. So each place where a key may start is
kept as a candidate, and a token is released only when no `key` can come in front
of it any more. -/
namespace ScoreSheet.Yaml

/-- A place where a key may have started; `number` counts the tokens before it. A
required candidate stands where its block has room for nothing but a key. -/
structure Candidate where
  possible : Bool
  required : Bool
  number : Nat
  line : Nat
  column : Nat
  index : Nat

namespace Candidate

def none : Candidate := ⟨false, false, 0, 0, 0, 0⟩

/-- A key takes one line and at most 1024 characters. -/
def isStale (k : Candidate) (s : Source) : Bool :=
  k.possible && (k.line < s.line || k.index + 1024 < s.index)

end Candidate

/-- An open bracket, and the candidate outside it. -/
structure Bracket where
  isList : Bool
  candidate : Candidate

/-- An indentation around the current one, and whether the block inside it ends with a
token. -/
structure Level where
  outer : Int
  isBlock : Bool

/-- What is known in the middle of a document. The candidate is that of the innermost
open bracket, which comes first among the brackets. `lists` has an entry for each open
list: the number of open brackets if its item is a member without braces. A colon at
`adjacentAt` need not be set apart. -/
structure Lexer where
  source : Source
  queue : List Token
  released : Nat
  indent : Int
  levels : List Level
  candidate : Candidate
  brackets : List Bracket
  keyAllowed : Bool
  lists : List (Option Nat)
  inBraces : Bool
  adjacentAt : Nat

abbrev Step := Lexer → Except Fault Lexer

namespace Lexer

def start (text : String) : Lexer :=
  ⟨.start text, [], 0, -1, [], .none, [], true, [], false, 0⟩

def depth (l : Lexer) : Nat := l.brackets.length

def inFlow (l : Lexer) : Bool := 0 < l.depth

def push (t : Token) (l : Lexer) : Lexer := { l with queue := l.queue ++ [t] }

def insert (number : Nat) (t : Token) (l : Lexer) : Lexer :=
  let n := number - l.released
  { l with queue := l.queue.take n ++ t :: l.queue.drop n }

def take (n : Nat) (l : Lexer) : Lexer := { l with source := l.source.take n }

def allowKey (allowed : Bool) (l : Lexer) : Lexer := { l with keyAllowed := allowed }

def passBlanks (l : Lexer) : Except Fault (Spacing × Lexer) :=
  l.source.passBlanks.map fun (spacing, s) => (spacing, { l with source := s })

/-- Goes on to the next content. Behind a line break a key may start in a block. -/
def passGap : Step := fun l =>
  (l.source.next l.indent).map fun (crossed, s) =>
    { l with source := s, keyAllowed := l.keyAllowed || crossed && !l.inFlow }

def atBlockLevel (l : Lexer) : Bool := (l.levels.head?.map (·.isBlock)).getD false

def saveCandidate (l : Lexer) : Lexer :=
  if l.keyAllowed then
    let required := !l.inFlow && l.indent == l.source.column && l.atBlockLevel
    let number := l.released + l.queue.length
    { l with candidate :=
        ⟨true, required, number, l.source.line, l.source.column, l.source.index⟩ }
  else l

def clearCandidate (l : Lexer) : Lexer :=
  { l with candidate := { l.candidate with possible := false } }

def removeCandidate : Step := fun l =>
  if l.candidate.possible && l.candidate.required then .error .brokenKey
  else .ok l.clearCandidate

def dropStale : Step := fun l =>
  if !l.inFlow && l.candidate.isStale l.source then
    if l.candidate.required then .error .missingColon else .ok l.clearCandidate
  else .ok l

/-- Opens a block in a column that is to the right of the current one. Its token goes
in front of the token with the given number, or behind all. -/
def openBlock (column : Nat) (number : Option Nat) (t : Token) (l : Lexer) : Lexer :=
  if l.inFlow then l
  else
    let l :=
      match l.levels with
      | ⟨outer, false⟩ :: levels =>
        if l.indent ≤ (column : Int) then { l with indent := outer, levels := levels } else l
      | _ => l
    if l.indent < (column : Int) then
      let l := { l with indent := column, levels := ⟨l.indent, true⟩ :: l.levels }
      match number with
      | some n => l.insert n t
      | none => l.push t
    else l

def closeLevels (column : Int) : List Level → Lexer → Lexer
  | [], l => { l with levels := [] }
  | ⟨outer, isBlock⟩ :: levels, l =>
    if column < l.indent then
      let l := { l with indent := outer }
      closeLevels column levels (if isBlock then l.push .blockEnd else l)
    else { l with levels := ⟨outer, isBlock⟩ :: levels }

def closeBlocks (column : Int) (l : Lexer) : Lexer :=
  if l.inFlow then l else closeLevels column l.levels l

/-- Content behind a sign on its line is indented by more than the sign. -/
def indentContent (l : Lexer) : Lexer :=
  if !l.inFlow && l.atBlockLevel then
    { l with indent := l.indent + 1, levels := ⟨l.indent, false⟩ :: l.levels }
  else l

def dropContentLevels (indent : Int) : List Level → Int × List Level
  | ⟨outer, false⟩ :: levels => dropContentLevels outer levels
  | levels => (indent, levels)

def leaveContent (l : Lexer) : Lexer :=
  let (indent, levels) := dropContentLevels l.indent l.levels
  { l with indent := indent, levels := levels }

def endContent : Step := fun l =>
  if l.inFlow then .error .openBracket
  else ((l.closeBlocks (-1)).removeCandidate).map (allowKey false)

def isVersion (cs : List Char) : Bool :=
  let minor := (cs.dropWhile Number.isDigit).drop 1
  let behind := minor.dropWhile Number.isDigit
  (digit? cs).isSome && (cs.dropWhile Number.isDigit).head? == some '.' &&
    (digit? minor).isSome && isApart behind &&
    ((behind.dropWhile isBlank).head?.map (· == '#')).getD true

/-- Whether a line is a directive: a name behind its sign and, if it says which version
the document has, a version. -/
def isDirective (line : List Char) : Bool :=
  let name := (line.drop 1).takeWhile isWordChar
  let behind := line.drop (1 + name.length)
  !name.isEmpty && isApart behind &&
    (name != ['Y', 'A', 'M', 'L'] || isVersion (behind.dropWhile isBlank))

def readDirective : Step := fun l => do
  let l ← (l.closeBlocks (-1)).removeCandidate
  let line := l.source.restOfLine
  if isDirective line then .ok (((l.take line.length).allowKey false).push .directive)
  else .error .badDirective

def readDocumentStart : Step := fun l =>
  l.endContent.map fun l => (l.take 3).push .documentStart

def readDocumentEnd : Step := fun l => do
  let l ← l.endContent
  let s ← (l.source.take 3).passLine .contentBehindMarker
  .ok ({ l with source := s }.push .documentEnd)

def readStop : Step := fun l =>
  if l.inFlow then .error .openBracket
  else ((l.closeBlocks (-1)).removeCandidate).map fun l => (l.allowKey false).push .stop

def maxDepth : Nat := 255

def openBracket (isList : Bool) : Step := fun l => do
  let l := l.saveCandidate.indentContent
  if maxDepth ≤ l.depth then .error .deepBrackets
  else
    let l := { l with
      candidate := .none
      brackets := ⟨isList, l.candidate⟩ :: l.brackets
      keyAllowed := true
      lists := if isList then none :: l.lists else l.lists
      inBraces := l.inBraces || !isList }
    let (_, l) ← (l.take 1).passBlanks
    .ok (l.push (if isList then .listOpen else .bracedOpen))

/-- Ends the member without braces that an item of the innermost list may be. -/
def endPair (l : Lexer) : Lexer :=
  match l.lists with
  | some depth :: lists =>
    if depth = l.depth then
      { l with lists := none :: lists, inBraces := false }.push .bracedClose
    else l
  | _ => l

def closeBracket (isList : Bool) : Step := fun l => do
  match l.brackets with
  | [] => .error .strayBracket
  | b :: outer =>
    if b.isList != isList then .error .mixedBrackets
    else
      let l ← l.removeCandidate
      let l :=
        if isList then
          let l := l.endPair
          { l with lists := l.lists.drop 1 }
        else l
      let l := { l with candidate := b.candidate, brackets := outer, keyAllowed := false }
      let (_, l) ← (l.take 1).passBlanks
      let l := if l.inFlow then { l with adjacentAt := l.source.index } else l
      .ok (l.push (if isList then .listClose else .bracedClose))

def readComma : Step := fun l => do
  let l ← l.removeCandidate
  let (_, l) ← ((l.allowKey true).endPair.take 1).passBlanks
  .ok (l.push .comma)

def readItem : Step := fun l => do
  if l.inFlow then .error .dashInBrackets
  else if !l.keyAllowed then .error .strayDash
  else
    let l := (l.openBlock l.source.column none .sequenceStart).take 1
    let (spacing, l) ← l.passBlanks
    if spacing.tabs && startsItem l.source.rest then .error .tabBehindDash
    else
      let l :=
        if l.source.startsWith (fun c => isBreak c || isFlowSign c) then l.indentContent else l
      (l.removeCandidate).map fun l => (l.allowKey true).push .item

def passSpaces : Nat → Source → Source
  | 0, s => s
  | fuel + 1, s =>
    if s.startsWith (· == ' ') then passSpaces fuel (s.skip 1)
    else if s.startsWith isBreak then passSpaces fuel s.takeBreak
    else if s.startsWith (· == '#') then passSpaces fuel (s.skip s.restOfLine.length)
    else s

def readKey : Step := fun l => do
  if !l.inFlow && !l.keyAllowed then .error .strayKey
  else
    let l :=
      if l.inFlow then { l with inBraces := true }
      else l.openBlock l.source.column none .mappingStart
    let l ← l.removeCandidate
    let s := l.source.take 1
    let behind := passSpaces (s.size + 1) s
    if behind.index = s.index then .error .missingBlank
    else if behind.startsWith (· == '\t') then .error .tabBehindKey
    else .ok (({ l with source := behind }.allowKey !l.inFlow).push .key)

/-- Passes the blanks behind a colon. A tab alone does not set apart what is no value
by itself. -/
def passColon : Step := fun l => do
  let l := l.take 1
  if l.source.startsWith (· == '\t') then
    let (spacing, l) ← l.passBlanks
    if !spacing.spaces && l.source.startsWith isWordChar then
      .error .tabBehindColon
    else .ok l
  else .ok l

def readValue : Step := fun l => do
  let column := l.source.column
  let line := l.source.line
  let k := l.candidate
  let isPair := !l.lists.isEmpty && !l.inBraces
  let l := if isPair then { l with lists := some l.depth :: l.lists.drop 1 } else l
  let l ← l.passColon
  if k.possible then
    let l := l.insert k.number .key
    if isPair && k.line < line then .error .distantColon
    else
      let l := if isPair then l.insert k.number .bracedOpen else l
      let l := (l.openBlock k.column (some k.number) .mappingStart).indentContent
      .ok ((l.clearCandidate.allowKey false).push .value)
  else
    let l := if isPair then l.push .bracedOpen else l
    if !l.inFlow && !l.keyAllowed then .error .strayValue
    else
      let l := (l.openBlock column none .mappingStart).indentContent
      .ok ((l.allowKey !l.inFlow).push .value)

def readPlainToken : Step := fun l => do
  let l := (l.saveCandidate.allowKey false).leaveContent
  let (text, s) ← readPlain l.inFlow l.indent l.source
  .ok ({ l with source := s, keyAllowed := s.freshLine }.push (.plain (.ofList text)))

def readQuotedToken (q : Quote) : Step := fun l => do
  let l := l.saveCandidate.allowKey false
  let (text, s) ← readQuoted q l.inFlow l.indent l.source
  let l ← ({ l with source := s } : Lexer).passGap
  .ok ({ l with adjacentAt := l.source.index }.push (.quoted (.ofList text)))

def readBlockToken (isFolded : Bool) : Step := fun l => do
  let l := (l.saveCandidate.allowKey true).leaveContent
  let (text, s) ← readBlock isFolded l.indent l.source
  .ok ({ l with source := s }.push (.quoted (.ofList text)))

def isNameChar (c : Char) : Bool := !(isBlank c || isBreak c || isFlowSign c)

def readName (token : String → Token) : Step := fun l => do
  let l := (l.saveCandidate.allowKey false).take 1
  let name := l.source.rest.takeWhile isNameChar
  if name.isEmpty then .error .unnamedAnchor
  else .ok ((l.take name.length).push (token (.ofList name)))

def tagText (cs : List Char) : List Char :=
  if ['!', '<'].isPrefixOf cs then
    let name := cs.takeWhile fun c => c != '>' && !isBlank c && !isBreak c
    name ++ (cs.drop name.length).takeWhile isNameChar
  else cs.takeWhile isNameChar

/-- Reads a tag, which a blank or inside brackets one of their signs must follow. -/
def readTag : Step := fun l => do
  let l := l.saveCandidate.allowKey false
  let text := tagText l.source.rest
  let l := l.take text.length
  if isApart l.source.rest || l.inFlow && startsWithFlowSign l.source.rest then
    .ok (l.push (.tag (.ofList text)))
  else .error .crowdedTag

def isColon (l : Lexer) (cs : List Char) : Bool :=
  isApart cs || l.inFlow && (startsWithFlowSign cs || l.adjacentAt == l.source.index)

def readContent (c : Char) (cs : List Char) : Step := fun l => do
  if c = '[' then l.openBracket true
  else if c = '\x7b' then l.openBracket false
  else if c = ']' then l.closeBracket true
  else if c = '\x7d' then l.closeBracket false
  else if c = ',' then l.readComma
  else if c = '-' ∧ isApart cs then l.readItem
  else if c = '?' ∧ isApart cs then l.readKey
  else if c = ':' ∧ l.isColon cs then
    let opens := cs.head? == some '[' || cs.head? == some '\x7b'
    if opens && l.adjacentAt != l.source.index then .error .colonBeforeBracket
    else l.readValue
  else if c = '*' then l.readName .reference
  else if c = '&' then l.readName .anchor
  else if c = '!' then l.readTag
  else if c = '|' ∧ !l.inFlow then l.readBlockToken false
  else if c = '>' ∧ !l.inFlow then l.readBlockToken true
  else if c = '\x27' then l.readQuotedToken .single
  else if c = '"' then l.readQuotedToken .double
  else if c = '%' ∨ c = '@' ∨ c = '\x60' then .error (.unexpectedStart c)
  else l.readPlainToken

def step : Step := fun l => do
  let l ← l.passGap
  let l ← l.dropStale
  let l := l.closeBlocks l.source.column
  match l.source.rest with
  | [] => l.readStop
  | c :: cs =>
    if l.source.column = 0 ∧ c = '%' then l.readDirective
    else if l.source.atSign '-' then l.readDocumentStart
    else if l.source.atSign '.' then l.readDocumentEnd
    else if (l.source.column : Int) < l.indent ∧
        ¬ (l.inFlow ∧ (c = ']' ∨ c = '\x7d' ∨ c = ',')) then .error .shallowContent
    else l.readContent c cs

/-- Whether a key may still come in front of the first token that is not released. -/
def isPending (l : Lexer) : Bool :=
  (l.candidate :: l.brackets.map (·.candidate)).any fun k =>
    k.possible && k.number == l.released

def advance (l : Lexer) : Except Fault (Option Token × Lexer) := do
  match l.queue with
  | [] => return (none, ← l.step)
  | t :: rest =>
    let l ← l.dropStale
    if l.isPending then return (none, ← l.step)
    else return (some t, { l with queue := rest, released := l.released + 1 })

/-- Releases the tokens one after the other. A fault ends them and takes the place of
all tokens that were not released. -/
def run : Nat → Lexer → List Token
  | 0, _ => [.stop]
  | fuel + 1, l =>
    match l.advance with
    | .error e => [.broken e]
    | .ok (none, l) => run fuel l
    | .ok (some t, l) => if t = .stop then [.stop] else t :: run fuel l

end Lexer

/-- The tokens of a document, the last of which is `stop` or `broken`. A step takes at
least one character, except for the last, and adds at most three tokens, of which one
may need one more to close it. -/
def tokenize (text : String) : List Token :=
  Lexer.run (5 * (text.toList.length + 2)) (.start text)

end ScoreSheet.Yaml
