import ScoreSheet.Rule.Token
import ScoreSheet.Text.Blank
import ScoreSheet.Text.Code
set_option autoImplicit false

namespace ScoreSheet.Rule

structure Source where
  rest : List Char
  position : Position
deriving DecidableEq

namespace Source

def start (text : String) : Source := ⟨text.toList, .start⟩

def advanceBy (s : Source) (n : Nat) : Source :=
  ⟨s.rest.drop n, s.position.advanceAll (s.rest.take n)⟩

end Source

/-- What the lexer is skipping: blanks, a comment up to the end of the line, or a
comment in brackets that was opened at a place. -/
inductive Gap where
  | blank
  | line
  | bracketed (opened : Position)

def skipGap : Gap → Position → List Char → Except SyntaxError Source
  | .blank, p, [] => .ok ⟨[], p⟩
  | .blank, p, '/' :: '/' :: cs => skipGap .line ((p.advance '/').advance '/') cs
  | .blank, p, '/' :: '*' :: cs => skipGap (.bracketed p) ((p.advance '/').advance '*') cs
  | .blank, p, c :: cs =>
    if Text.isBlank c then skipGap .blank (p.advance c) cs else .ok ⟨c :: cs, p⟩
  | .line, p, [] => .ok ⟨[], p⟩
  | .line, p, c :: cs =>
    skipGap (if c = '\n' then .blank else .line) (p.advance c) cs
  | .bracketed opened, _, [] => .error ⟨.unterminatedComment, opened⟩
  | .bracketed _, p, '*' :: '/' :: cs => skipGap .blank ((p.advance '*').advance '/') cs
  | .bracketed opened, p, c :: cs => skipGap (.bracketed opened) (p.advance c) cs

def isNameStart (c : Char) : Bool := c.isAlpha || c = '_' || c = '$'

def isNameChar (c : Char) : Bool := c.isAlphanum || c = '_' || c = '$'

def startsWithDigit : List Char → Bool
  | c :: _ => Number.isDigit c
  | [] => false

def withFirst (c : Char) :
    Except (List Char) (List Char × List Char) → Except (List Char) (List Char × List Char)
  | .ok (text, rest) => .ok (c :: text, rest)
  | .error text => .error (c :: text)

/-- Splits off a numeral: digits, one point that no second point follows, and
exponents, each of which needs a digit. Fails with the text up to a missing digit. -/
def splitNumeral : Bool → List Char → Except (List Char) (List Char × List Char)
  | _, [] => .ok ([], [])
  | pointSeen, c :: cs =>
    if Number.isDigit c then withFirst c (splitNumeral pointSeen cs)
    else if c = '.' ∧ pointSeen = false then
      if cs.head? = some '.' then .ok ([], c :: cs)
      else withFirst c (splitNumeral true cs)
    else if c = 'e' ∨ c = 'E' then
      match cs with
      | [] => .error [c]
      | d :: ds =>
        if d = '+' ∨ d = '-' then
          if startsWithDigit ds then withFirst c (withFirst d (splitNumeral pointSeen ds))
          else .error [c, d]
        else if Number.isDigit d then withFirst c (splitNumeral pointSeen (d :: ds))
        else .error [c]
    else .ok ([], c :: cs)

def readNumber (s : Source) : Except SyntaxError (Token × Source) :=
  match splitNumeral false s.rest with
  | .error text => .error ⟨.invalidNumber text, s.position⟩
  | .ok (text, rest) =>
    if (rest.head?.map isNameStart).getD false then .error ⟨.nameAfterNumber, s.position⟩
    else
      match Number.read? text with
      | some x => .ok (.number x, ⟨rest, s.position.advanceAll text⟩)
      | none => .error ⟨.invalidNumber text, s.position⟩

def unescape (c : Char) : Char :=
  if c = 'n' then '\n'
  else if c = 't' then '\t'
  else if c = 'r' then '\r'
  else if c = '0' then '\x00'
  else c

def withCharacter (c : Char) (r : Except SyntaxError (List Char × Source)) :
    Except SyntaxError (List Char × Source) :=
  r.map fun (text, s) => (c :: text, s)

def stringBody (quote : Char) (opened : Position) :
    Position → List Char → Except SyntaxError (List Char × Source)
  | _, [] => .error ⟨.unterminatedString, opened⟩
  | _, ['\\'] => .error ⟨.unterminatedString, opened⟩
  | p, '\\' :: 'u' :: a :: b :: c :: d :: cs =>
    match (Text.hexNumber? [a, b, c, d]).bind Text.charOfCode? with
    | some x =>
      withCharacter x (stringBody quote opened (p.advanceAll ['\\', 'u', a, b, c, d]) cs)
    | none => .error ⟨.invalidEscape, p.advance '\\'⟩
  | p, '\\' :: 'u' :: _ => .error ⟨.invalidEscape, p.advance '\\'⟩
  | p, '\\' :: c :: cs =>
    withCharacter (unescape c) (stringBody quote opened ((p.advance '\\').advance c) cs)
  | p, c :: cs =>
    if c = '\n' then .error ⟨.unterminatedString, opened⟩
    else if c = quote then .ok ([], ⟨cs, p.advance c⟩)
    else withCharacter c (stringBody quote opened (p.advance c) cs)

def readWord (s : Source) : Token × Source :=
  let word := s.rest.takeWhile isNameChar
  let token : Token :=
    match Keyword.ofWord? (.ofList word) with
    | some k => .keyword k
    | none => .name (.ofList word)
  (token, ⟨s.rest.dropWhile isNameChar, s.position.advanceAll word⟩)

def readSign (s : Source) (c : Char) : Except SyntaxError (Token × Source) :=
  if ['.', '.'].isPrefixOf s.rest ∧ ¬ ['.', '.', '.'].isPrefixOf s.rest then
    .error ⟨.unexpectedDots, s.position⟩
  else
    match Sign.leading? s.rest with
    | some sign => .ok (.sign sign, s.advanceBy sign.spelling.length)
    | none =>
      if c = '&' then .error ⟨.singleAnd, s.position⟩
      else if c = '|' then .error ⟨.singleOr, s.position⟩
      else .error ⟨.unexpectedCharacter c, s.position⟩

def readToken (s : Source) : Except SyntaxError (Token × Source) :=
  match s.rest with
  | [] => .ok (.stop, s)
  | c :: cs =>
    if c = '"' ∨ c = '\x27' then
      (stringBody c s.position (s.position.advance c) cs).map fun (text, rest) =>
        (.string (.ofList text), rest)
    else if Number.isDigit c ∨ c = '.' ∧ startsWithDigit cs then readNumber s
    else if isNameStart c then .ok (readWord s)
    else readSign s c

def readTokens : Nat → Source → Except SyntaxError (List Located)
  | 0, s => .ok [⟨.stop, s.position⟩]
  | fuel + 1, s =>
    match skipGap .blank s.position s.rest with
    | .error e => .error e
    | .ok s =>
      match readToken s with
      | .error e => .error e
      | .ok (token, rest) =>
        if token = .stop then .ok [⟨.stop, s.position⟩]
        else (readTokens fuel rest).map (⟨token, s.position⟩ :: ·)

/-- The tokens of a source text, with `stop` as the last one. Every other token
takes at least one character, so the length of the text bounds their number. -/
def tokenize (text : String) : Except SyntaxError (List Located) :=
  readTokens (text.toList.length + 1) (.start text)

end ScoreSheet.Rule
