import ScoreSheet.Rule.Value
set_option autoImplicit false

namespace ScoreSheet.Rule

inductive UnaryOp where
  | not | negate | plus
deriving DecidableEq

inductive BinaryOp where
  | add | subtract | multiply | divide | remainder
  | equal | notEqual | identical | notIdentical
  | less | lessEqual | greater | greaterEqual
deriving DecidableEq

inductive LogicalOp where
  | and | or | coalesce
deriving DecidableEq

inductive Item (α : Type) where
  | one (x : α)
  | spread (x : α)

/-- An expression. Only names can be called: functions are no values. -/
inductive Expr where
  | literal (v : Value)
  | name (n : String)
  | array (items : List (Item Expr))
  | object (fields : List (String × Expr))
  | unary (op : UnaryOp) (operand : Expr)
  | binary (op : BinaryOp) (left right : Expr)
  | logical (op : LogicalOp) (left right : Expr)
  | conditional (condition yes no : Expr)
  | call (function : String) (arguments : List (Item Expr))
  | member (object : Expr) (property : String)
  | index (object property : Expr)
deriving Inhabited

inductive Stmt where
  | expr (e : Expr)
  | declare (name : String) (e : Expr)
  | assign (name : String) (e : Expr)
  | branch (condition : Expr) (yes : List Stmt) (no : Option (List Stmt))
  | block (body : List Stmt)
  | return (e : Option Expr)
deriving Inhabited

structure Parameters where
  names : List String
  rest : Option String
deriving DecidableEq

def Parameters.all (p : Parameters) : List String := p.names ++ p.rest.toList

end ScoreSheet.Rule
