import ScoreSheet.Proofs.Rule.Path
import ScoreSheet.Rule.Function
set_option autoImplicit false

/-! Expressions are printed with parentheses where an operand binds more weakly than its place
asks for, and only there. Statements end with a semicolon or a brace, branches stand in
braces, and one blank stands between each two tokens. -/
namespace ScoreSheet.Rule

def quotedChar (c : Char) : List Char :=
  if c = '"' ∨ c = '\\' then ['\\', c]
  else if c = '\n' then ['\\', 'n']
  else [c]

def Token.text : Token → List Char
  | number x => (Number.display x).toList
  | string s => '"' :: (s.toList.flatMap quotedChar ++ ['"'])
  | name n => n.toList
  | keyword k => k.spelling.toList
  | sign s => s.spelling
  | stop => []

def spaced : List Token → List Char
  | [] => []
  | t :: rest => t.text ++ rest.flatMap fun u => ' ' :: u.text

def UnaryOp.sign : UnaryOp → Sign
  | not => .bang
  | negate => .minus
  | plus => .plus

def BinaryOp.level : BinaryOp → Level
  | add | subtract => .sum
  | multiply | divide | remainder => .product
  | equal | notEqual | identical | notIdentical => .equality
  | less | lessEqual | greater | greaterEqual => .comparison

def BinaryOp.sign : BinaryOp → Sign
  | add => .plus
  | subtract => .minus
  | multiply => .star
  | divide => .slash
  | remainder => .percent
  | equal => .equal
  | notEqual => .notEqual
  | identical => .identical
  | notIdentical => .notIdentical
  | less => .less
  | lessEqual => .lessEqual
  | greater => .greater
  | greaterEqual => .greaterEqual

def LogicalOp.level : LogicalOp → Level
  | and => .conjunction
  | or | coalesce => .alternative

def LogicalOp.sign : LogicalOp → Sign
  | and => .andAnd
  | or => .orOr
  | coalesce => .questionQuestion

def Level.strength : Level → Nat
  | alternative => 1
  | conjunction => 2
  | equality => 3
  | comparison => 4
  | sum => 5
  | product => 6

/-- How strongly the outermost operator binds: conditionals most weakly, then the levels of
binary operators, prefix operators and selectors. Without an operator nothing is weaker. -/
def Expr.strength : Expr → Nat
  | conditional .. => 0
  | logical op .. => op.level.strength
  | binary op .. => op.level.strength
  | unary .. => 7
  | member .. | index .. => 8
  | literal .. | name .. | array .. | object .. | call .. => 9

def Value.words : Value → List Token
  | undefined => [.keyword .undefined]
  | null => [.keyword .null]
  | bool true => [.keyword .true]
  | bool false => [.keyword .false]
  | number x => [.number x]
  | string s => [.string s]
  | array _ | object _ => []

/-- The words, in parentheses if they bind more weakly than the place asks for. -/
def inPlace (place strength : Nat) (w : List Token) : List Token :=
  if strength < place then .sign .leftParen :: (w ++ [.sign .rightParen]) else w

def behindComma (further : List Token) (last : Bool) : List Token :=
  if last then [] else .sign .comma :: further

mutual

def Expr.words : Expr → List Token
  | .literal v => v.words
  | .name n => [.name n]
  | .array items => .sign .leftBracket :: (itemsWords items ++ [.sign .rightBracket])
  | .object fields => .sign .leftBrace :: (fieldsWords fields ++ [.sign .rightBrace])
  | .unary op e => .sign op.sign :: inPlace 7 e.strength e.words
  | .binary op e f =>
    inPlace op.level.strength e.strength e.words ++
      .sign op.sign :: inPlace (op.level.strength + 1) f.strength f.words
  | .logical op e f =>
    inPlace op.level.strength e.strength e.words ++
      .sign op.sign :: inPlace (op.level.strength + 1) f.strength f.words
  | .conditional c e f =>
    inPlace 1 c.strength c.words ++ .sign .question :: (e.words ++ .sign .colon :: f.words)
  | .call n arguments =>
    .name n :: .sign .leftParen :: (itemsWords arguments ++ [.sign .rightParen])
  | .member e n => inPlace 8 e.strength e.words ++ [.sign .dot, .name n]
  | .index e f =>
    inPlace 8 e.strength e.words ++ .sign .leftBracket :: (f.words ++ [.sign .rightBracket])

def itemsWords : List (Item Expr) → List Token
  | [] => []
  | .one e :: rest => e.words ++ behindComma (itemsWords rest) rest.isEmpty
  | .spread e :: rest =>
    .sign .ellipsis :: (e.words ++ behindComma (itemsWords rest) rest.isEmpty)

def fieldsWords : List (String × Expr) → List Token
  | [] => []
  | (key, e) :: rest =>
    .string key :: .sign .colon :: (e.words ++ behindComma (fieldsWords rest) rest.isEmpty)

end

/-- An expression as a statement: in parentheses if it were a block otherwise. -/
def Expr.statementWords (e : Expr) : List Token :=
  if e.words.head? = some (.sign .leftBrace) then
    .sign .leftParen :: (e.words ++ [.sign .rightParen])
  else e.words

mutual

def Stmt.words : Stmt → List Token
  | .expr e => e.statementWords ++ [.sign .semicolon]
  | .declare n e => .keyword .let :: .name n :: .sign .assign :: (e.words ++ [.sign .semicolon])
  | .assign n e => .name n :: .sign .assign :: (e.words ++ [.sign .semicolon])
  | .branch c yes no =>
    .keyword .if :: .sign .leftParen :: (c.words ++ .sign .rightParen :: .sign .leftBrace ::
      (bodyWords yes ++ .sign .rightBrace :: elseWords no))
  | .block body => .sign .leftBrace :: (bodyWords body ++ [.sign .rightBrace])
  | .return none => [.keyword .return, .sign .semicolon]
  | .return (some e) => .keyword .return :: (e.words ++ [.sign .semicolon])

def bodyWords : List Stmt → List Token
  | [] => []
  | s :: rest => s.words ++ bodyWords rest

def elseWords : Option (List Stmt) → List Token
  | none => []
  | some body => .keyword .else :: .sign .leftBrace :: (bodyWords body ++ [.sign .rightBrace])

end

def printBody (body : List Stmt) : String := .ofList (spaced (bodyWords body))

example : printBody [.branch (.unary .not (.binary .less (.name "a") (.name "b")))
      [.expr (.object [("k", .name "a")])] none, .return none] =
    "if ( ! ( a < b ) ) \x7b ( \x7b \"k\" : a \x7d ) ; \x7d return ;" := by
  rfl

def Parameters.parts (p : Parameters) : List (List Token) :=
  p.names.map (fun n => [.name n]) ++ p.rest.toList.map fun n => [.sign .ellipsis, .name n]

/-- The parts with a comma behind each of them, the last one only if it is `trailing`. -/
def withCommas (trailing : Bool) : List (List Token) → List Token
  | [] => []
  | [w] => if trailing then w ++ [.sign .comma] else w
  | w :: rest => w ++ .sign .comma :: withCommas trailing rest

def printParameters (p : Parameters) (trailing : Bool) : String :=
  .ofList (spaced (withCommas trailing p.parts))

def IsName (n : String) : Prop := isIdentifier n = true ∧ Keyword.ofWord? n = none

instance (n : String) : Decidable (IsName n) := inferInstanceAs (Decidable (_ ∧ _))

/-- A finite number without a sign that the text which displays it stands for. -/
def IsNumeral (x : Float) : Prop :=
  (∃ b, Number.parts x = .finite false b) ∧ Number.read? (Number.display x).toList = some x

def Value.IsLiteral : Value → Prop
  | number x => IsNumeral x
  | array _ | object _ => False
  | undefined | null | bool _ | string _ => True

/-- Expressions that a text can hold as they are. -/
inductive Expr.Normal : Expr → Prop where
  | literal {v : Value} (h : v.IsLiteral) : Normal (.literal v)
  | name {n : String} (h : IsName n) : Normal (.name n)
  | array {items : List (Item Expr)} (h : ∀ i ∈ items, Normal i.value) : Normal (.array items)
  | object {fields : List (String × Expr)} (distinct : (fields.map Prod.fst).Nodup)
      (h : ∀ f ∈ fields, Normal f.2) : Normal (.object fields)
  | unary {op : UnaryOp} {e : Expr} (h : Normal e) : Normal (.unary op e)
  | binary {op : BinaryOp} {e f : Expr} (he : Normal e) (hf : Normal f) : Normal (.binary op e f)
  | logical {op : LogicalOp} {e f : Expr} (he : Normal e) (hf : Normal f) :
      Normal (.logical op e f)
  | conditional {c e f : Expr} (hc : Normal c) (he : Normal e) (hf : Normal f) :
      Normal (.conditional c e f)
  | call {n : String} {arguments : List (Item Expr)} (hn : IsName n)
      (h : ∀ i ∈ arguments, Normal i.value) : Normal (.call n arguments)
  | member {e : Expr} {n : String} (he : Normal e) (hn : IsName n) : Normal (.member e n)
  | index {e f : Expr} (he : Normal e) (hf : Normal f) : Normal (.index e f)

inductive Stmt.Normal : Stmt → Prop where
  | expr {e : Expr} (h : e.Normal) : Normal (.expr e)
  | declare {n : String} {e : Expr} (hn : IsName n) (h : e.Normal) : Normal (.declare n e)
  | assign {n : String} {e : Expr} (hn : IsName n) (h : e.Normal) : Normal (.assign n e)
  | branch {c : Expr} {yes : List Stmt} {no : Option (List Stmt)} (hc : c.Normal)
      (hy : ∀ s ∈ yes, Normal s) (hn : ∀ body ∈ no, ∀ s ∈ body, Normal s) :
      Normal (.branch c yes no)
  | block {body : List Stmt} (h : ∀ s ∈ body, Normal s) : Normal (.block body)
  | return {e : Option Expr} (h : ∀ x ∈ e, x.Normal) : Normal (.return e)

end ScoreSheet.Rule
