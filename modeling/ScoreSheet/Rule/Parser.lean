import ScoreSheet.Rule.Lexer
import ScoreSheet.Rule.Syntax
set_option autoImplicit false

/-! Binary operators have six levels and associate to the left; the conditional
operator binds weakest and prefix operators and selectors bind strongest. Two
allowances bound the trees: `room` is spent by every nested expression, statement
and prefix operator, and `links` by every further operator or selector on the way
to a subexpression. -/
namespace ScoreSheet.Rule

/-- Nested expressions, statements and prefix operators that a text may hold. -/
def nestingLimit : Nat := 64

/-- Operators and selectors that may be chained on the way to one place. -/
def chainLimit : Nat := 256

abbrev Tokens := List Located

abbrev Parse (α : Type) := Tokens → Except SyntaxError (α × Tokens)

/-- The first token; there is nothing behind the last one, which stays. -/
def current : Tokens → Located
  | t :: _ => t
  | [] => ⟨.stop, .start⟩

def peek (ts : Tokens) : Token := (current ts).token

def advance : Tokens → Tokens
  | _ :: t :: ts => t :: ts
  | ts => ts

def fail {α : Type} (ts : Tokens) (fault : SyntaxFault) : Except SyntaxError α :=
  .error ⟨fault, (current ts).position⟩

def unexpected {α : Type} (ts : Tokens) (wanted : Wanted) : Except SyntaxError α :=
  fail ts (.expected wanted (peek ts))

def expect (s : Sign) (ts : Tokens) : Except SyntaxError Tokens :=
  if peek ts = .sign s then .ok (advance ts) else unexpected ts (.sign s)

def expectStop {α : Type} (x : α) (ts : Tokens) : Except SyntaxError α :=
  if peek ts = .stop then .ok x else unexpected ts .stop

def identifier (ts : Tokens) : Except SyntaxError (String × Tokens) :=
  match peek ts with
  | .name n => .ok (n, advance ts)
  | _ => unexpected ts .name

def skipSemicolons : Tokens → Tokens
  | t :: u :: ts => if t.token = .sign .semicolon then skipSemicolons (u :: ts) else t :: u :: ts
  | ts => ts

/-- The levels of binary operators, from weakest to strongest. -/
inductive Level where
  | alternative | conjunction | equality | comparison | sum | product
deriving DecidableEq

def Level.all : List Level :=
  [.alternative, .conjunction, .equality, .comparison, .sum, .product]

def Level.operation? : Level → Sign → Option (Expr → Expr → Expr)
  | .alternative, .orOr => some (.logical .or)
  | .alternative, .questionQuestion => some (.logical .coalesce)
  | .conjunction, .andAnd => some (.logical .and)
  | .equality, .equal => some (.binary .equal)
  | .equality, .notEqual => some (.binary .notEqual)
  | .equality, .identical => some (.binary .identical)
  | .equality, .notIdentical => some (.binary .notIdentical)
  | .comparison, .less => some (.binary .less)
  | .comparison, .lessEqual => some (.binary .lessEqual)
  | .comparison, .greater => some (.binary .greater)
  | .comparison, .greaterEqual => some (.binary .greaterEqual)
  | .sum, .plus => some (.binary .add)
  | .sum, .minus => some (.binary .subtract)
  | .product, .star => some (.binary .multiply)
  | .product, .slash => some (.binary .divide)
  | .product, .percent => some (.binary .remainder)
  | _, _ => none

def Level.operationAt? (level : Level) (ts : Tokens) : Option (Expr → Expr → Expr) :=
  match peek ts with
  | .sign s => level.operation? s
  | _ => none

def prefixOperator? : Token → Option UnaryOp
  | .sign .bang => some .not
  | .sign .minus => some .negate
  | .sign .plus => some .plus
  | _ => none

/-- Reads further operands of a level and joins them to the left. -/
def chain (level : Level) (operand : Nat → Parse Expr) : Nat → Expr → Parse Expr
  | 0, left, ts =>
    match level.operationAt? ts with
    | none => .ok (left, ts)
    | some _ => fail (advance ts) .chainTooLong
  | links + 1, left, ts =>
    match level.operationAt? ts with
    | none => .ok (left, ts)
    | some join => do
      let (right, ts) ← operand links (advance ts)
      chain level operand links (join left right) ts

def operations (operand : Nat → Parse Expr) : List Level → Nat → Parse Expr
  | [], links, ts => operand links ts
  | level :: levels, links, ts => do
    let (left, ts) ← operations operand levels links ts
    chain level (operations operand levels) links left ts

def items (expression : Parse Expr) (close : Sign) : Nat → Parse (List (Item Expr))
  | 0, ts => unexpected ts (.sign close)
  | fuel + 1, ts =>
    if peek ts = .sign close then .ok ([], advance ts)
    else do
      let (item, ts) ←
        if peek ts = .sign .ellipsis then
          (expression (advance ts)).map fun (e, ts) => (Item.spread e, ts)
        else (expression ts).map fun (e, ts) => (Item.one e, ts)
      if peek ts = .sign .comma then
        let (rest, ts) ← items expression close fuel (advance ts)
        .ok (item :: rest, ts)
      else
        let ts ← expect close ts
        .ok ([item], ts)

/-- Reads the name of a property and says whether it can stand alone. -/
def propertyName (ts : Tokens) : Except SyntaxError ((String × Bool) × Tokens) :=
  match peek ts with
  | .name n => .ok ((n, true), advance ts)
  | .string s => .ok ((s, false), advance ts)
  | .number x => .ok ((Number.display x, false), advance ts)
  | _ => unexpected ts .propertyName

/-- Puts a property in front of later ones, unless one of them has its name. -/
def withProperty (name : String) (e : Expr) (later : List (String × Expr)) :
    List (String × Expr) :=
  if later.any (·.1 == name) then later else (name, e) :: later

/-- Reads properties up to and with the closing brace; a comma may precede it. Of
properties with one name the last one counts. -/
def properties (expression : Parse Expr) : Nat → Parse (List (String × Expr))
  | 0, ts => unexpected ts (.sign .rightBrace)
  | fuel + 1, ts =>
    if peek ts = .sign .rightBrace then .ok ([], advance ts)
    else do
      let ((name, alone), ts) ← propertyName ts
      let (e, ts) ←
        if peek ts = .sign .colon then expression (advance ts)
        else if alone then .ok (.name name, ts)
        else unexpected ts (.sign .colon)
      if peek ts = .sign .comma then
        let (later, ts) ← properties expression fuel (advance ts)
        .ok (withProperty name e later, ts)
      else
        let ts ← expect .rightBrace ts
        .ok ([(name, e)], ts)

def primary (expression : Parse Expr) : Parse Expr := fun ts =>
  match peek ts with
  | .number x => .ok (.literal (.number x), advance ts)
  | .string s => .ok (.literal (.string s), advance ts)
  | .keyword .true => .ok (.literal (.bool true), advance ts)
  | .keyword .false => .ok (.literal (.bool false), advance ts)
  | .keyword .null => .ok (.literal .null, advance ts)
  | .keyword .undefined => .ok (.literal .undefined, advance ts)
  | .name n =>
    if peek (advance ts) = .sign .leftParen then do
      let (arguments, ts) ← items expression .rightParen ts.length (advance (advance ts))
      .ok (.call n arguments, ts)
    else .ok (.name n, advance ts)
  | .sign .leftParen => do
    let (e, ts) ← expression (advance ts)
    let ts ← expect .rightParen ts
    .ok (e, ts)
  | .sign .leftBracket => do
    let (elements, ts) ← items expression .rightBracket ts.length (advance ts)
    .ok (.array elements, ts)
  | .sign .leftBrace => do
    let (fields, ts) ← properties expression ts.length (advance ts)
    .ok (.object fields, ts)
  | _ => unexpected ts .expression

def selectors (expression : Nat → Parse Expr) : Nat → Expr → Parse Expr
  | 0, e, ts =>
    if peek ts = .sign .dot ∨ peek ts = .sign .leftBracket then fail (advance ts) .chainTooLong
    else if peek ts = .sign .leftParen then fail ts .calledExpression
    else .ok (e, ts)
  | links + 1, e, ts =>
    if peek ts = .sign .dot then do
      let (property, ts) ← identifier (advance ts)
      if peek ts = .sign .leftParen then fail ts (.methodCall property)
      else selectors expression links (.member e property) ts
    else if peek ts = .sign .leftBracket then do
      let (property, ts) ← expression links (advance ts)
      let ts ← expect .rightBracket ts
      selectors expression links (.index e property) ts
    else if peek ts = .sign .leftParen then fail ts .calledExpression
    else .ok (e, ts)

/-- Reads an operand. `deeper` reads what follows a prefix operator and
`expression` what stands in brackets. -/
def operand (deeper expression : Nat → Parse Expr) (links : Nat) : Parse Expr := fun ts =>
  match prefixOperator? (peek ts) with
  | some op => do
    let (e, ts) ← deeper links (advance ts)
    .ok (.unary op e, ts)
  | none => do
    let (e, ts) ← primary (expression links) ts
    selectors expression links e ts

def conditional (operand expression : Nat → Parse Expr) (links : Nat) : Parse Expr :=
  fun ts => do
    let (condition, ts) ← operations operand Level.all links ts
    if peek ts = .sign .question then
      let (yes, ts) ← expression links (advance ts)
      let ts ← expect .colon ts
      let (no, ts) ← expression links ts
      .ok (.conditional condition yes no, ts)
    else .ok (condition, ts)

/-- How expressions and operands are read where some room is left. -/
structure Grammar where
  expression : Nat → Parse Expr
  operand : Nat → Parse Expr

def outOfRoom {α : Type} : Parse α := fun ts => fail ts .nestedTooDeep

def grammar : Nat → Grammar
  | 0 => ⟨fun _ => outOfRoom, operand (fun _ => outOfRoom) (fun _ => outOfRoom)⟩
  | room + 1 =>
    let inner := grammar room
    let expression := conditional inner.operand inner.expression
    ⟨expression, operand inner.operand expression⟩

def expression (room : Nat) : Parse Expr := (grammar room).expression chainLimit

/-- A statement ends with a semicolon, before a closing brace, or with the text. -/
def endStatement (s : Stmt) (ts : Tokens) : Except SyntaxError (Option Stmt × Tokens) :=
  match peek ts with
  | .sign .semicolon => .ok (some s, advance ts)
  | .sign .rightBrace | .stop => .ok (some s, ts)
  | _ => unexpected ts (.sign .semicolon)

def blockBody (statement : Parse (Option Stmt)) : Nat → Parse (List Stmt)
  | 0, ts => unexpected ts (.sign .rightBrace)
  | fuel + 1, ts =>
    match peek ts with
    | .sign .rightBrace => .ok ([], advance ts)
    | .stop => unexpected ts (.sign .rightBrace)
    | _ => do
      let (s, ts) ← statement ts
      let (body, ts) ← blockBody statement fuel ts
      .ok (s.toList ++ body, ts)

def branchBody (statement : Parse (Option Stmt)) : Parse (List Stmt) := fun ts =>
  if peek ts = .sign .leftBrace then blockBody statement ts.length (advance ts)
  else (statement ts).map fun (s, ts) => (s.toList, ts)

/-- Reads a statement whose parts are read by `expression` and `statement`; an
empty statement is `none`. -/
def statementForm (expression : Parse Expr) (statement : Parse (Option Stmt)) :
    Parse (Option Stmt) := fun ts =>
  match peek ts with
  | .sign .semicolon => .ok (none, advance ts)
  | .sign .leftBrace => do
    let (body, ts) ← blockBody statement ts.length (advance ts)
    .ok (some (.block body), ts)
  | .keyword .if => do
    let ts ← expect .leftParen (advance ts)
    let (condition, ts) ← expression ts
    let ts ← expect .rightParen ts
    let (yes, ts) ← branchBody statement ts
    if peek ts = .keyword .else then
      let (no, ts) ← branchBody statement (advance ts)
      .ok (some (.branch condition yes (some no)), ts)
    else .ok (some (.branch condition yes none), ts)
  | .keyword .return =>
    match peek (advance ts) with
    | .sign .semicolon | .sign .rightBrace | .stop => endStatement (.return none) (advance ts)
    | _ => do
      let (e, ts) ← expression (advance ts)
      endStatement (.return (some e)) ts
  | .keyword .let => do
    let (name, ts) ← identifier (advance ts)
    let ts ← expect .assign ts
    let (e, ts) ← expression ts
    endStatement (.declare name e) ts
  | .name name =>
    if peek (advance ts) = .sign .assign then do
      let (e, ts) ← expression (advance (advance ts))
      endStatement (.assign name e) ts
    else do
      let (e, ts) ← expression ts
      endStatement (.expr e) ts
  | _ => do
    let (e, ts) ← expression ts
    endStatement (.expr e) ts

def statement : Nat → Parse (Option Stmt)
  | 0 => outOfRoom
  | room + 1 => statementForm (expression room) (statement room)

def statements : Nat → Tokens → Except SyntaxError (List Stmt)
  | 0, ts => expectStop [] ts
  | fuel + 1, ts =>
    if peek ts = .stop then .ok []
    else do
      let (s, ts) ← statement nestingLimit ts
      let body ← statements fuel ts
      .ok (s.toList ++ body)

/-- Parses a rule: one expression between optional semicolons. A text without a
token is no rule. -/
def parseRule (text : String) : Except SyntaxError (Option Expr) := do
  let ts := skipSemicolons (← tokenize text)
  if peek ts = .stop then .ok none
  else
    let (e, ts) ← expression nestingLimit ts
    expectStop (some e) (skipSemicolons ts)

def parseBody (text : String) : Except SyntaxError (List Stmt) := do
  let ts ← tokenize text
  statements ts.length ts

/-- Reads parameter names separated by commas; a comma may end the list, and a
name behind an ellipsis must. -/
def parameters : Nat → Tokens → Except SyntaxError Parameters
  | 0, ts => expectStop ⟨[], none⟩ ts
  | fuel + 1, ts =>
    if peek ts = .stop then .ok ⟨[], none⟩
    else if peek ts = .sign .ellipsis then do
      let (name, ts) ← identifier (advance ts)
      expectStop ⟨[], some name⟩ (if peek ts = .sign .comma then advance ts else ts)
    else do
      let (name, ts) ← identifier ts
      if peek ts = .sign .comma then
        let p ← parameters fuel (advance ts)
        .ok ⟨name :: p.names, p.rest⟩
      else expectStop ⟨[name], none⟩ ts

def parseParameters (text : String) : Except SyntaxError Parameters := do
  let ts ← tokenize text
  parameters ts.length ts

end ScoreSheet.Rule
