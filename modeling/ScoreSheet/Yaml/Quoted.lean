import ScoreSheet.Text.Code
import ScoreSheet.Yaml.Source
set_option autoImplicit false

namespace ScoreSheet.Yaml

inductive Quote where
  | single | double
deriving DecidableEq

namespace Quote

def mark : Quote → Char
  | .single => '\x27'
  | .double => '"'

end Quote

def unescape? (c : Char) : Option Char :=
  if c = '0' then some '\x00'
  else if c = 'a' then some '\x07'
  else if c = 'b' then some '\x08'
  else if c = 't' || c = '\t' then some '\t'
  else if c = 'n' then some '\n'
  else if c = 'v' then some '\x0b'
  else if c = 'f' then some '\x0c'
  else if c = 'r' then some '\r'
  else if c = 'e' then some '\x1b'
  else if c = ' ' || c = '"' || c = '/' || c = '\\' then some c
  else if c = 'N' then some '\u0085'
  else if c = '_' then some '\u00a0'
  else if c = 'L' then some '\u2028'
  else if c = 'P' then some '\u2029'
  else none

def codeLength (c : Char) : Nat :=
  if c = 'x' then 2 else if c = 'u' then 4 else if c = 'U' then 8 else 0

def readEscape : List Char → Except Fault (Char × Nat)
  | [] => .error .unknownEscape
  | c :: cs =>
    let length := codeLength c
    if 0 < length then
      match Text.hexNumber? (cs.take length) with
      | some n =>
        if cs.length < length then .error .missingDigits
        else
          match Text.charOfCode? n with
          | some x => .ok (x, 1 + length)
          | none => .error .noCharacter
      | none => .error .missingDigits
    else
      match unescape? c with
      | some x => .ok (x, 1)
      | none => .error .unknownEscape

/-- Reads the body of a quoted scalar whose text so far is `text`, last character
first. Further lines must be indented. -/
def quotedFrom (q : Quote) (indent : Int) :
    Nat → List Char → Source → Except Fault (List Char × Source)
  | 0, _, _ => .error .openQuote
  | fuel + 1, text, s =>
    if s.atMarker then .error .markerInQuotes
    else
      match s.rest with
      | [] => .error .openQuote
      | c :: cs =>
        if isBlank c || isBreak c then do
          let (gap, s) ← s.passGap indent (fun _ => .error .tabInQuotes) (.blanks [])
          quotedFrom q indent fuel (gap.text.reverse ++ text) s
        else if (s.column : Int) < indent then .error .shallowQuoted
        else if c = q.mark then
          if q = .single ∧ cs.head? = some c then quotedFrom q indent fuel (c :: text) (s.take 2)
          else .ok (text.reverse, s.take 1)
        else if c = '\\' ∧ q = .double then
          if (s.take 1).startsWith isBreak then
            let s := (s.take 1).takeBreak
            if s.startsWith (· == q.mark) then .ok (text.reverse, s.take 1)
            else do
              let (gap, s) ← s.passGap indent (fun _ => .error .tabInQuotes) (.joined 0)
              quotedFrom q indent fuel (gap.text.reverse ++ text) s
          else do
            let (x, n) ← readEscape cs
            quotedFrom q indent fuel (x :: text) (s.take (1 + n))
        else quotedFrom q indent fuel (c :: text) (s.take 1)

def mayFollowQuote (inFlow : Bool) (line : Nat) (s : Source) : Bool :=
  s.atLineEnd || inFlow && s.startsWith (fun c => c = ',' || c = ']' || c = '\x7d') ||
    s.startsWith (· == ':') && (inFlow || s.line == line)

def readQuoted (q : Quote) (inFlow : Bool) (indent : Int) (s : Source) :
    Except Fault (List Char × Source) := do
  let (text, behind) ← quotedFrom q indent (s.size + 1) [] (s.take 1)
  let (_, behind) ← behind.passBlanks
  if mayFollowQuote inFlow s.line behind then .ok (text, behind) else .error .contentBehindQuote

end ScoreSheet.Yaml
