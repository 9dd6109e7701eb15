import ScoreSheet.Number.Numeral
import ScoreSheet.Text.Quoted
set_option autoImplicit false

namespace ScoreSheet.Rule

/-- A place in a source text. Both numbers count from one; columns count
characters. -/
structure Position where
  line : Nat
  column : Nat
deriving DecidableEq, Inhabited

namespace Position

def start : Position := ⟨1, 1⟩

def advance (p : Position) (c : Char) : Position :=
  if c = '\n' then ⟨p.line + 1, 1⟩ else ⟨p.line, p.column + 1⟩

def advanceAll (p : Position) (cs : List Char) : Position :=
  cs.foldl advance p

end Position

inductive Keyword where
  | true | false | null | undefined | return | let | if | else
deriving DecidableEq

namespace Keyword

def spelling : Keyword → String
  | .true => "true"
  | .false => "false"
  | .null => "null"
  | .undefined => "undefined"
  | .return => "return"
  | .let => "let"
  | .if => "if"
  | .else => "else"

/-- The keyword that a word is. Three words introduce a local name. -/
def ofWord? (word : String) : Option Keyword :=
  if word = "true" then some .true
  else if word = "false" then some .false
  else if word = "null" then some .null
  else if word = "undefined" then some .undefined
  else if word = "return" then some .return
  else if word = "const" ∨ word = "let" ∨ word = "var" then some .let
  else if word = "if" then some .if
  else if word = "else" then some .else
  else none

end Keyword

inductive Sign where
  | leftParen | rightParen | leftBrace | rightBrace | leftBracket | rightBracket
  | comma | colon | semicolon | dot | ellipsis | question | questionQuestion
  | plus | minus | star | slash | percent | bang | assign
  | equal | notEqual | identical | notIdentical
  | less | lessEqual | greater | greaterEqual | andAnd | orOr
deriving DecidableEq

namespace Sign

def spelling : Sign → List Char
  | leftParen => ['(']
  | rightParen => [')']
  | leftBrace => ['\x7b']
  | rightBrace => ['\x7d']
  | leftBracket => ['[']
  | rightBracket => [']']
  | comma => [',']
  | colon => [':']
  | semicolon => [';']
  | dot => ['.']
  | ellipsis => ['.', '.', '.']
  | question => ['?']
  | questionQuestion => ['?', '?']
  | plus => ['+']
  | minus => ['-']
  | star => ['*']
  | slash => ['/']
  | percent => ['%']
  | bang => ['!']
  | assign => ['=']
  | equal => ['=', '=']
  | notEqual => ['!', '=']
  | identical => ['=', '=', '=']
  | notIdentical => ['!', '=', '=']
  | less => ['<']
  | lessEqual => ['<', '=']
  | greater => ['>']
  | greaterEqual => ['>', '=']
  | andAnd => ['&', '&']
  | orOr => ['|', '|']

/-- All signs, longer spellings first. -/
def all : List Sign :=
  [ellipsis, identical, notIdentical,
   questionQuestion, equal, notEqual, lessEqual, greaterEqual, andAnd, orOr,
   leftParen, rightParen, leftBrace, rightBrace, leftBracket, rightBracket,
   comma, colon, semicolon, dot, question, plus, minus, star, slash, percent,
   bang, assign, less, greater]

def leading? (cs : List Char) : Option Sign :=
  all.find? fun s => s.spelling.isPrefixOf cs

end Sign

inductive Token where
  | number (x : Float)
  | string (s : String)
  | name (s : String)
  | keyword (k : Keyword)
  | sign (s : Sign)
  | stop
deriving DecidableEq, Inhabited

def inQuotes (s : String) : String := "'" ++ s ++ "'"

def Token.describe : Token → String
  | number x => s!"number {Number.plain x}"
  | string s => s!"string {Text.quoted s}"
  | name s => s!"identifier {inQuotes s}"
  | keyword k => inQuotes k.spelling
  | sign s => inQuotes (.ofList s.spelling)
  | stop => "end of input"

structure Located where
  token : Token
  position : Position
deriving DecidableEq, Inhabited

inductive Wanted where
  | sign (s : Sign)
  | name
  | propertyName
  | expression
  | stop
deriving DecidableEq

def Wanted.describe : Wanted → String
  | sign s => inQuotes (.ofList s.spelling)
  | name => "identifier"
  | propertyName => "property name"
  | expression => "expression"
  | stop => "end of input"

inductive SyntaxFault where
  | unexpectedCharacter (c : Char)
  | unexpectedDots
  | singleAnd
  | singleOr
  | unterminatedComment
  | unterminatedString
  | invalidEscape
  | invalidNumber (text : List Char)
  | nameAfterNumber
  | expected (wanted : Wanted) (found : Token)
  | nestedTooDeep
  | chainTooLong
  | methodCall (name : String)
  | calledExpression
deriving DecidableEq

def SyntaxFault.message : SyntaxFault → String
  | unexpectedCharacter c => s!"unexpected character {inQuotes c.toString}"
  | unexpectedDots => "unexpected '..'"
  | singleAnd => "bitwise '&' is not supported"
  | singleOr => "bitwise '|' is not supported"
  | unterminatedComment => "unterminated comment"
  | unterminatedString => "unterminated string"
  | invalidEscape => "invalid unicode escape"
  | invalidNumber text => s!"invalid number {inQuotes (.ofList text)}"
  | nameAfterNumber => "identifier starts immediately after number"
  | expected wanted found => s!"expected {wanted.describe}, found {found.describe}"
  | nestedTooDeep => "nesting too deep"
  | chainTooLong => "expression too long"
  | methodCall name => s!"method calls are not supported ('.{name}(...)')"
  | calledExpression => "only named functions can be called"

structure SyntaxError where
  fault : SyntaxFault
  position : Position
deriving DecidableEq

end ScoreSheet.Rule
