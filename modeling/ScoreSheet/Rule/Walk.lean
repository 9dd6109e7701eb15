import ScoreSheet.Rule.Parser
set_option autoImplicit false

/-! The parser as a walk over the tokens of a text: a cursor moves along them and carries two
counters, which are raised and lowered by hand. One counts nested expressions, statements
and prefix operators, the other one operators and selectors that are chained. Nothing but
the tokens bounds a loop or a recursion here, so a walk that does not end has no result. -/
namespace ScoreSheet.Rule

structure Cursor where
  place : Nat
  depth : Nat
  links : Nat
deriving DecidableEq

/-- A walk so far: where it stands, and every cursor that it has had on the way, the
latest one first. -/
structure Walk where
  now : Cursor
  passed : List Cursor

/-- A part of a walk: `none` if it does not end, else a result or a syntax error. -/
abbrev Walking (α : Type) := StateT Walk (ExceptT SyntaxError Option) α

namespace Walk

def start : Walk := ⟨⟨0, 0, 0⟩, []⟩

def move (f : Cursor → Cursor) : Walking Unit :=
  modify fun w => ⟨f w.now, f w.now :: w.passed⟩

def leave : Walking Unit := move fun c => { c with depth := c.depth - 1 }

def linkCount : Walking Nat := do return (← get).now.links

def restoreLinks (count : Nat) : Walking Unit := move fun c => { c with links := count }

def setProperty (before : List (String × Expr)) (next : String × Expr) :
    List (String × Expr) :=
  before.filter (·.1 ≠ next.1) ++ [next]

end Walk

namespace Tokens
open Walk

section
variable (ts : Tokens)

/-- The token at a place; behind the last token it is the last one. -/
def tokenAt (place : Nat) : Located :=
  (ts[min place (ts.length - 1)]?).getD ⟨.stop, .start⟩

def fail {α : Type} (fault : SyntaxFault) : Walking α := do
  throw ⟨fault, (ts.tokenAt (← get).now.place).position⟩

def enter : Walking Unit := do
  move fun c => { c with depth := c.depth + 1 }
  if (← get).now.depth > nestingLimit then ts.fail .nestedTooDeep

def link : Walking Unit := do
  move fun c => { c with links := c.links + 1 }
  if (← get).now.links > chainLimit then ts.fail .chainTooLong

def look : Walking Token := do return (ts.tokenAt (← get).now.place).token

def lookBehind : Walking Token := do return (ts.tokenAt ((← get).now.place + 1)).token

def advance : Walking Unit :=
  move fun c => if c.place < ts.length - 1 then { c with place := c.place + 1 } else c

def unexpected {α : Type} (wanted : Wanted) : Walking α := do
  ts.fail (.expected wanted (← ts.look))

def eat (t : Token) : Walking Bool := do
  if (← ts.look) = t then
    ts.advance
    return true
  else return false

def expect (s : Sign) : Walking Unit := do
  if ← ts.eat (.sign s) then return ()
  else ts.unexpected (.sign s)

def expectStop : Walking Unit := do
  if (← ts.look) = .stop then return ()
  else ts.unexpected .stop

def identifier : Walking String := do
  match ← ts.look with
  | .name n =>
    ts.advance
    return n
  | _ => ts.unexpected .name

def propertyName : Walking (String × Bool) := do
  match ← ts.look with
  | .name n =>
    ts.advance
    return (n, true)
  | .string s =>
    ts.advance
    return (s, false)
  | .number x =>
    ts.advance
    return (Number.display x, false)
  | _ => ts.unexpected .propertyName

def operator (level : Level) : Walking (Option (Expr → Expr → Expr)) := do
  match ← ts.look with
  | .sign s => return level.operation? s
  | _ => return none

def endStatement : Walking Unit := do
  match ← ts.look with
  | .sign .semicolon => ts.advance
  | .sign .rightBrace | .stop => return ()
  | _ => ts.unexpected (.sign .semicolon)

end

def skipSemicolons (ts : Tokens) : Walking Unit := do
  if ← ts.eat (.sign .semicolon) then ts |>.skipSemicolons
partial_fixpoint

mutual

def expression (ts : Tokens) : Walking Expr := do
  ts.enter
  let e ← ts |>.conditional
  leave
  return e
partial_fixpoint

def conditional (ts : Tokens) : Walking Expr := do
  let condition ← ts |>.operations Level.all
  if ← ts.eat (.sign .question) then
    let yes ← ts |>.expression
    ts.expect .colon
    let no ← ts |>.expression
    return .conditional condition yes no
  else return condition
partial_fixpoint

def operations (ts : Tokens) (levels : List Level) : Walking Expr :=
  match levels with
  | [] => ts |>.operand
  | level :: levels => do
    let left ← ts |>.operations levels
    let mark ← linkCount
    let e ← ts |>.chain level levels left
    restoreLinks mark
    return e
partial_fixpoint

def chain (ts : Tokens) (level : Level) (levels : List Level) (left : Expr) : Walking Expr := do
  match ← ts.operator level with
  | none => return left
  | some join =>
    ts.advance
    ts.link
    let right ← ts |>.operations levels
    ts |>.chain level levels (join left right)
partial_fixpoint

def operand (ts : Tokens) : Walking Expr := do
  match prefixOperator? (← ts.look) with
  | some op =>
    ts.advance
    ts.enter
    let e ← ts |>.operand
    leave
    return .unary op e
  | none => ts |>.selected
partial_fixpoint

def selected (ts : Tokens) : Walking Expr := do
  let object ← ts |>.primary
  let mark ← linkCount
  let e ← ts |>.selectors object
  restoreLinks mark
  return e
partial_fixpoint

def selectors (ts : Tokens) (e : Expr) : Walking Expr := do
  match ← ts.look with
  | .sign .dot =>
    ts.advance
    ts.link
    let property ← ts.identifier
    if (← ts.look) = .sign .leftParen then ts.fail (.methodCall property)
    else ts |>.selectors (.member e property)
  | .sign .leftBracket =>
    ts.advance
    ts.link
    let property ← ts |>.expression
    ts.expect .rightBracket
    ts |>.selectors (.index e property)
  | .sign .leftParen => ts.fail .calledExpression
  | _ => return e
partial_fixpoint

def primary (ts : Tokens) : Walking Expr := do
  match ← ts.look with
  | .number x =>
    ts.advance
    return .literal (.number x)
  | .string s =>
    ts.advance
    return .literal (.string s)
  | .keyword .true =>
    ts.advance
    return .literal (.bool true)
  | .keyword .false =>
    ts.advance
    return .literal (.bool false)
  | .keyword .null =>
    ts.advance
    return .literal .null
  | .keyword .undefined =>
    ts.advance
    return .literal .undefined
  | .name n =>
    ts.advance
    if ← ts.eat (.sign .leftParen) then
      let arguments ← ts |>.items .rightParen []
      return .call n arguments
    else return .name n
  | .sign .leftParen =>
    ts.advance
    let e ← ts |>.expression
    ts.expect .rightParen
    return e
  | .sign .leftBracket =>
    ts.advance
    let elements ← ts |>.items .rightBracket []
    return .array elements
  | .sign .leftBrace =>
    ts.advance
    let fields ← ts |>.properties []
    return .object fields
  | _ => ts.unexpected .expression
partial_fixpoint

def item (ts : Tokens) : Walking (Item Expr) := do
  if ← ts.eat (.sign .ellipsis) then
    let e ← ts |>.expression
    return .spread e
  else
    let e ← ts |>.expression
    return .one e
partial_fixpoint

def items (ts : Tokens) (close : Sign) (before : List (Item Expr)) :
    Walking (List (Item Expr)) := do
  if ← ts.eat (.sign close) then return before
  else
    let next ← ts |>.item
    if ← ts.eat (.sign .comma) then ts |>.items close (before ++ [next])
    else
      ts.expect close
      return before ++ [next]
partial_fixpoint

def property (ts : Tokens) : Walking (String × Expr) := do
  let (name, alone) ← ts.propertyName
  if ← ts.eat (.sign .colon) then
    let e ← ts |>.expression
    return (name, e)
  else if alone then return (name, .name name)
  else ts.unexpected (.sign .colon)
partial_fixpoint

def properties (ts : Tokens) (before : List (String × Expr)) :
    Walking (List (String × Expr)) := do
  if ← ts.eat (.sign .rightBrace) then return before
  else
    let next ← ts |>.property
    if ← ts.eat (.sign .comma) then ts |>.properties (setProperty before next)
    else
      ts.expect .rightBrace
      return setProperty before next
partial_fixpoint

end

mutual

def statement (ts : Tokens) : Walking (Option Stmt) := do
  ts.enter
  let s ← ts |>.statementForm
  leave
  return s
partial_fixpoint

def statementForm (ts : Tokens) : Walking (Option Stmt) := do
  match ← ts.look with
  | .sign .semicolon =>
    ts.advance
    return none
  | .sign .leftBrace =>
    ts.advance
    let body ← ts |>.blockBody []
    return some (.block body)
  | .keyword .if =>
    ts.advance
    ts.expect .leftParen
    let condition ← ts.expression
    ts.expect .rightParen
    let yes ← ts |>.branchBody
    if ← ts.eat (.keyword .else) then
      let no ← ts |>.branchBody
      return some (.branch condition yes (some no))
    else return some (.branch condition yes none)
  | .keyword .return =>
    ts.advance
    match ← ts.look with
    | .sign .semicolon | .sign .rightBrace | .stop =>
      ts.endStatement
      return some (.return none)
    | _ =>
      let e ← ts.expression
      ts.endStatement
      return some (.return (some e))
  | .keyword .let =>
    ts.advance
    let name ← ts.identifier
    ts.expect .assign
    let e ← ts.expression
    ts.endStatement
    return some (.declare name e)
  | .name name =>
    if (← ts.lookBehind) = .sign .assign then
      ts.advance
      ts.advance
      let e ← ts.expression
      ts.endStatement
      return some (.assign name e)
    else
      let e ← ts.expression
      ts.endStatement
      return some (.expr e)
  | _ =>
    let e ← ts.expression
    ts.endStatement
    return some (.expr e)
partial_fixpoint

def blockBody (ts : Tokens) (before : List Stmt) : Walking (List Stmt) := do
  match ← ts.look with
  | .sign .rightBrace =>
    ts.advance
    return before
  | .stop => ts.unexpected (.sign .rightBrace)
  | _ =>
    let s ← ts |>.statement
    ts |>.blockBody (before ++ s.toList)
partial_fixpoint

def branchBody (ts : Tokens) : Walking (List Stmt) := do
  if ← ts.eat (.sign .leftBrace) then ts |>.blockBody []
  else
    let s ← ts |>.statement
    return s.toList
partial_fixpoint

end

def rule (ts : Tokens) : Walking (Option Expr) := do
  ts.skipSemicolons
  if (← ts.look) = .stop then return none
  else
    let e ← ts.expression
    ts.skipSemicolons
    ts.expectStop
    return some e

def statements (ts : Tokens) (before : List Stmt) : Walking (List Stmt) := do
  if (← ts.look) = .stop then return before
  else
    let s ← ts.statement
    ts |>.statements (before ++ s.toList)
partial_fixpoint

def parameters (ts : Tokens) (before : List String) : Walking Parameters := do
  if (← ts.look) = .stop then return ⟨before, none⟩
  else if ← ts.eat (.sign .ellipsis) then
    let name ← ts.identifier
    let _ ← ts.eat (.sign .comma)
    ts.expectStop
    return ⟨before, some name⟩
  else
    let name ← ts.identifier
    if ← ts.eat (.sign .comma) then ts |>.parameters (before ++ [name])
    else
      ts.expectStop
      return ⟨before ++ [name], none⟩
partial_fixpoint

end Tokens

def Walk.parse {α : Type} (walking : Tokens → Walking α) (text : String) :
    Option (Except SyntaxError α) :=
  match tokenize text with
  | .error e => some (.error e)
  | .ok ts => Option.map (Except.map Prod.fst) (walking ts start)

end ScoreSheet.Rule
