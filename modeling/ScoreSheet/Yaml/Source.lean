import ScoreSheet.Yaml.Fault
set_option autoImplicit false

namespace ScoreSheet.Yaml

def isBlank (c : Char) : Bool := c = ' ' || c = '\t'

def isBreak (c : Char) : Bool := c = '\n' || c = '\r'

def isFlowSign (c : Char) : Bool :=
  c = ',' || c = '[' || c = ']' || c = '\x7b' || c = '\x7d'

def isWordChar (c : Char) : Bool := c.isAlphanum || c = '_' || c = '-'

def startsWithFlowSign (cs : List Char) : Bool := (cs.head?.map isFlowSign).getD false

def isApart : List Char → Bool
  | [] => true
  | c :: _ => isBlank c || isBreak c

def startsItem : List Char → Bool
  | '-' :: cs => isApart cs
  | _ => false

/-- The text still to be read, out of `size` characters. Lines, columns and characters
are counted from zero; on a fresh line only blanks have been passed. -/
structure Source where
  rest : List Char
  size : Nat
  line : Nat
  column : Nat
  index : Nat
  freshLine : Bool

namespace Source

/-- The start of a text, behind a byte order mark. The text ends at a null character. -/
def start (text : String) : Source :=
  let cs := text.toList.takeWhile (· != '\x00')
  ⟨if cs.head? = some '\ufeff' then cs.drop 1 else cs, cs.length, 0, 0, 0, true⟩

def skip (s : Source) (n : Nat) : Source :=
  { s with rest := s.rest.drop n, column := s.column + n, index := s.index + n }

def take (s : Source) (n : Nat) : Source :=
  { s.skip n with freshLine := false }

def takeBreak (s : Source) : Source :=
  let n := if ['\r', '\n'].isPrefixOf s.rest then 2 else 1
  { s.skip n with line := s.line + 1, column := 0, freshLine := true }

def startsWith (s : Source) (p : Char → Bool) : Bool := (s.rest.head?.map p).getD false

def atLineEnd (s : Source) : Bool := (s.rest.head?.map isBreak).getD true

def restOfLine (s : Source) : List Char := s.rest.takeWhile fun c => !isBreak c

def atSign (s : Source) (sign : Char) : Bool :=
  s.column == 0 && [sign, sign, sign].isPrefixOf s.rest && isApart (s.rest.drop 3)

def atMarker (s : Source) : Bool := s.atSign '-' || s.atSign '.'

end Source

structure Spacing where
  spaces : Bool
  tabs : Bool
deriving DecidableEq

namespace Source

/-- Passes blanks and a comment behind them, which needs a blank in front. -/
def passBlanks (s : Source) : Except Fault (Spacing × Source) :=
  let blanks := s.rest.takeWhile isBlank
  let behind := s.skip blanks.length
  if behind.startsWith (· == '#') then
    if blanks.isEmpty then .error .crowdedComment
    else .ok (⟨blanks.contains ' ', blanks.contains '\t'⟩, behind.skip behind.restOfLine.length)
  else .ok (⟨blanks.contains ' ', blanks.contains '\t'⟩, behind)

def passLine (s : Source) (otherwise : Fault) : Except Fault Source := do
  let (_, s) ← s.passBlanks
  if s.atLineEnd then .ok s else .error otherwise

/-- Goes on to the next content and says whether a line ended on the way. A tab left
of the indentation stands only on a line without content. -/
def toContent (indent : Int) : Nat → Bool → Source → Except Fault (Bool × Source)
  | 0, crossed, s => .ok (crossed, s)
  | fuel + 1, crossed, s =>
    match s.rest with
    | [] => .ok (crossed, s)
    | c :: _ =>
      if c = '\t' ∧ s.freshLine ∧ (s.column : Int) < indent then do
        toContent indent fuel crossed (← s.passLine .tabIndentation)
      else if isBlank c then toContent indent fuel crossed (s.skip 1)
      else if isBreak c then toContent indent fuel true s.takeBreak
      else if c = '#' then toContent indent fuel crossed (s.skip s.restOfLine.length)
      else .ok (crossed, s)

/-- Every step takes a character, so the size of the text bounds their number. -/
def next (s : Source) (indent : Int) : Except Fault (Bool × Source) :=
  toContent indent (s.size + 1) false s

end Source

/-- What has been passed between two words of a scalar: blanks, line breaks, or line
breaks the first of which was escaped and does not count. -/
inductive Gap where
  | blanks (text : List Char)
  | lines (breaks : Nat)
  | joined (breaks : Nat)

namespace Gap

/-- One line break stands for a blank, more for one less. -/
def text : Gap → List Char
  | .blanks text => text
  | .lines breaks => if breaks ≤ 1 then [' '] else List.replicate (breaks - 1) '\n'
  | .joined breaks => List.replicate breaks '\n'

def addBreak : Gap → Gap
  | .blanks _ => .lines 1
  | .lines breaks => .lines (breaks + 1)
  | .joined breaks => .joined (breaks + 1)

def addBlank (c : Char) : Gap → Gap
  | .blanks text => .blanks (text ++ [c])
  | gap => gap

end Gap

namespace Source

/-- Passes blanks and line breaks. What a tab left of the indentation means is for
`onTab` to say. -/
def passGapFrom (indent : Int) (onTab : Source → Except Fault Source) :
    Nat → Gap → Source → Except Fault (Gap × Source)
  | 0, gap, s => .ok (gap, s)
  | fuel + 1, gap, s =>
    match s.rest with
    | [] => .ok (gap, s)
    | c :: _ =>
      if isBreak c then passGapFrom indent onTab fuel gap.addBreak s.takeBreak
      else if isBlank c then
        if c = '\t' ∧ s.freshLine ∧ (s.column : Int) < indent then do
          passGapFrom indent onTab fuel gap (← onTab s)
        else passGapFrom indent onTab fuel (gap.addBlank c) (s.skip 1)
      else .ok (gap, s)

def passGap (s : Source) (indent : Int) (onTab : Source → Except Fault Source) (gap : Gap) :
    Except Fault (Gap × Source) :=
  passGapFrom indent onTab (s.size + 1) gap s

end Source

end ScoreSheet.Yaml
