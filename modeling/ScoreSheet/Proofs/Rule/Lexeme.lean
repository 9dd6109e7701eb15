import ScoreSheet.Rule.Lexer
set_option autoImplicit false

/-! A lexeme is a token together with one of the ways to write it, a layout a list of
lexemes with a separator between each two. What a layout says about tokens and places
does not refer to the lexer. -/
namespace ScoreSheet.Rule

structure Exponent where
  mark : Char
  sign : List Char
  digits : List Char
  mark_eq : mark = 'e' ∨ mark = 'E'
  sign_eq : sign = [] ∨ sign = ['+'] ∨ sign = ['-']
  digits_ne_nil : digits ≠ []
  isDigit : ∀ c ∈ digits, Number.isDigit c

namespace Exponent

def spelling (e : Exponent) : List Char := e.mark :: (e.sign ++ e.digits)

def value (e : Exponent) : Int :=
  if e.sign = ['-'] then -(Number.ofDigits e.digits : Int) else Number.ofDigits e.digits

end Exponent

/-- Digits on at least one side of the point, if there is a point. -/
structure Numeral where
  whole : List Char
  fraction : Option (List Char)
  exponent : Option Exponent
  isDigit_whole : ∀ c ∈ whole, Number.isDigit c
  isDigit_fraction : ∀ ds ∈ fraction, ∀ c ∈ ds, Number.isDigit c
  ne_nil : whole ≠ [] ∨ fraction.getD [] ≠ []

namespace Numeral

def digits (n : Numeral) : List Char := n.whole ++ n.fraction.getD []

def fractionSpelling (n : Numeral) : List Char :=
  match n.fraction with
  | none => []
  | some ds => '.' :: ds

def exponentSpelling (n : Numeral) : List Char :=
  match n.exponent with
  | none => []
  | some e => e.spelling

def spelling (n : Numeral) : List Char :=
  n.whole ++ (n.fractionSpelling ++ n.exponentSpelling)

/-- All digits as a whole number, scaled by the exponent less the places behind the
point. -/
def value (n : Numeral) : Float :=
  Number.ofDecimal (Number.ofDigits n.digits)
    ((n.exponent.map Exponent.value).getD 0 - (n.fraction.getD []).length)

end Numeral

inductive Escape : Char → Char → Prop where
  | newline : Escape 'n' '\n'
  | tab : Escape 't' '\t'
  | carriageReturn : Escape 'r' '\r'
  | zero : Escape '0' '\x00'
  | self {c : Char} (h : c ∉ ['n', 't', 'r', '0', 'u']) : Escape c c

inductive StringChar (quote : Char) where
  | raw (c : Char) (h : c ∉ [quote, '\\', '\n'])
  | escaped (letter c : Char) (h : Escape letter c)
  | code (w x y z c : Char) (h : Text.hexNumber? [w, x, y, z] = some c.toNat)

namespace StringChar
variable {quote : Char}

def char : StringChar quote → Char
  | raw c _ | escaped _ c _ | code _ _ _ _ c _ => c

def spelling : StringChar quote → List Char
  | raw c _ => [c]
  | escaped letter _ _ => ['\\', letter]
  | code w x y z _ _ => ['\\', 'u', w, x, y, z]

end StringChar

def Keyword.words : Keyword → List String
  | .let => ["const", "let", "var"]
  | k => [k.spelling]

inductive Lexeme where
  | name (first : Char) (rest : List Char) (hf : isNameStart first)
      (hr : ∀ c ∈ rest, isNameChar c) (hk : ∀ k : Keyword, .ofList (first :: rest) ∉ k.words)
  | keyword (k : Keyword) (word : String) (h : word ∈ k.words)
  | sign (s : Sign)
  | number (n : Numeral)
  | string (quote : Char) (chars : List (StringChar quote)) (hq : quote = '"' ∨ quote = '\x27')

namespace Lexeme

def token : Lexeme → Token
  | name first rest _ _ _ => .name (.ofList (first :: rest))
  | keyword k _ _ => .keyword k
  | sign s => .sign s
  | number n => .number n.value
  | string _ chars _ => .string (.ofList (chars.map StringChar.char))

def spelling : Lexeme → List Char
  | name first rest _ _ _ => first :: rest
  | keyword _ word _ => word.toList
  | sign s => s.spelling
  | number n => n.spelling
  | string quote chars _ => quote :: (chars.flatMap StringChar.spelling ++ [quote])

end Lexeme

/-- One white-space character, or a comment with the characters that close it. -/
inductive GapPiece where
  | blank (c : Char) (h : Text.isBlank c)
  | line (text : List Char) (h : '\n' ∉ text)
  | bracketed (text : List Char) (h : ¬ ['*', '/'] <:+: text)

def GapPiece.spelling : GapPiece → List Char
  | blank c _ => [c]
  | line text _ => '/' :: '/' :: (text ++ ['\n'])
  | bracketed text _ => '/' :: '*' :: (text ++ ['*', '/'])

structure Separator where
  first : Char
  pieces : List GapPiece
  isBlank_first : Text.isBlank first

def Separator.spelling (s : Separator) : List Char :=
  s.first :: s.pieces.flatMap GapPiece.spelling

def Position.behind (text : List Char) : Position :=
  ⟨1 + text.count '\n', 1 + (text.reverse.takeWhile (· ≠ '\n')).length⟩

/-- No lexeme at all, or a first one and further ones, each behind a separator. -/
inductive Layout where
  | empty
  | lexemes (first : Lexeme) (further : List (Separator × Lexeme))

namespace Layout

def furtherText (further : List (Separator × Lexeme)) : List Char :=
  further.flatMap fun (s, l) => s.spelling ++ l.spelling

def text : Layout → List Char
  | empty => []
  | lexemes first further => first.spelling ++ furtherText further

def furtherTokens (before : List Char) : List (Separator × Lexeme) → List Located
  | [] => [⟨.stop, .behind before⟩]
  | (s, l) :: further =>
    ⟨l.token, .behind (before ++ s.spelling)⟩ ::
      furtherTokens (before ++ s.spelling ++ l.spelling) further

def tokens : Layout → List Located
  | empty => [⟨.stop, .behind []⟩]
  | lexemes first further => ⟨first.token, .behind []⟩ :: furtherTokens first.spelling further

end Layout

end ScoreSheet.Rule
