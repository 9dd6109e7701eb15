import ScoreSheet.Rule.Syntax
set_option autoImplicit false

/-! A path leads from an expression to a leaf of its tree. It is the list of the operators
and selectors that it passes, each with the side on which it goes on; brackets,
conditionals, calls, arrays and objects are passed without a mark. -/
namespace ScoreSheet.Rule

/-- `left` goes into a left operand or a selected object, `right` into a right operand or
an index. -/
inductive Turn where
  | left | right
deriving DecidableEq

def Item.value {α : Type} : Item α → α
  | one x | spread x => x

namespace Expr

inductive Path : Expr → List Turn → Prop where
  | literal (v : Value) : Path (.literal v) []
  | name (n : String) : Path (.name n) []
  | emptyArray : Path (.array []) []
  | array {items : List (Item Expr)} {item : Item Expr} {path : List Turn}
      (hi : item ∈ items) (h : Path item.value path) : Path (.array items) path
  | emptyObject : Path (.object []) []
  | object {fields : List (String × Expr)} {name : String} {e : Expr} {path : List Turn}
      (hf : (name, e) ∈ fields) (h : Path e path) : Path (.object fields) path
  | unary {op : UnaryOp} {e : Expr} {path : List Turn} (h : Path e path) :
      Path (.unary op e) path
  | binaryLeft {op : BinaryOp} {e f : Expr} {path : List Turn} (h : Path e path) :
      Path (.binary op e f) (.left :: path)
  | binaryRight {op : BinaryOp} {e f : Expr} {path : List Turn} (h : Path f path) :
      Path (.binary op e f) (.right :: path)
  | logicalLeft {op : LogicalOp} {e f : Expr} {path : List Turn} (h : Path e path) :
      Path (.logical op e f) (.left :: path)
  | logicalRight {op : LogicalOp} {e f : Expr} {path : List Turn} (h : Path f path) :
      Path (.logical op e f) (.right :: path)
  | condition {c e f : Expr} {path : List Turn} (h : Path c path) :
      Path (.conditional c e f) path
  | yes {c e f : Expr} {path : List Turn} (h : Path e path) : Path (.conditional c e f) path
  | no {c e f : Expr} {path : List Turn} (h : Path f path) : Path (.conditional c e f) path
  | emptyCall (function : String) : Path (.call function []) []
  | call {function : String} {arguments : List (Item Expr)} {item : Item Expr}
      {path : List Turn} (hi : item ∈ arguments) (h : Path item.value path) :
      Path (.call function arguments) path
  | member {e : Expr} {property : String} {path : List Turn} (h : Path e path) :
      Path (.member e property) (.left :: path)
  | indexLeft {e f : Expr} {path : List Turn} (h : Path e path) :
      Path (.index e f) (.left :: path)
  | indexRight {e f : Expr} {path : List Turn} (h : Path f path) :
      Path (.index e f) (.right :: path)

/-- No path makes more than `turns` right turns or passes more than `length` operators
and selectors. -/
def Within (turns length : Nat) (e : Expr) : Prop :=
  ∀ path, e.Path path → path.count .right ≤ turns ∧ path.length ≤ length

namespace Within
variable {turns length : Nat}

theorem mono {turns' length' : Nat} {e : Expr} (h : e.Within turns length)
    (ht : turns ≤ turns') (hl : length ≤ length') : e.Within turns' length' := by
  intro path hp
  obtain ⟨hr, hn⟩ := h path hp
  exact ⟨Nat.le_trans hr ht, Nat.le_trans hn hl⟩

theorem literal (v : Value) : (Expr.literal v).Within turns length := by
  rintro _ ⟨⟩
  exact ⟨Nat.zero_le _, Nat.zero_le _⟩

theorem name (n : String) : (Expr.name n).Within turns length := by
  rintro _ ⟨⟩
  exact ⟨Nat.zero_le _, Nat.zero_le _⟩

theorem array {items : List (Item Expr)} (h : ∀ item ∈ items, item.value.Within turns length) :
    (Expr.array items).Within turns length := by
  intro path hp
  cases hp with
  | emptyArray => exact ⟨Nat.zero_le _, Nat.zero_le _⟩
  | array hi hp => exact h _ hi path hp

theorem object {fields : List (String × Expr)} (h : ∀ f ∈ fields, f.2.Within turns length) :
    (Expr.object fields).Within turns length := by
  intro path hp
  cases hp with
  | emptyObject => exact ⟨Nat.zero_le _, Nat.zero_le _⟩
  | object hf hp => exact h _ hf path hp

theorem unary {op : UnaryOp} {e : Expr} (h : e.Within turns length) :
    (Expr.unary op e).Within turns length := by
  rintro path ⟨⟩
  exact h path ‹_›

theorem conditional {c e f : Expr} (hc : c.Within turns length) (he : e.Within turns length)
    (hf : f.Within turns length) : (Expr.conditional c e f).Within turns length := by
  intro path hp
  cases hp with
  | condition hp => exact hc path hp
  | yes hp => exact he path hp
  | no hp => exact hf path hp

theorem call {function : String} {arguments : List (Item Expr)}
    (h : ∀ item ∈ arguments, item.value.Within turns length) :
    (Expr.call function arguments).Within turns length := by
  intro path hp
  cases hp with
  | emptyCall => exact ⟨Nat.zero_le _, Nat.zero_le _⟩
  | call hi hp => exact h _ hi path hp

/-! An operator or a selector adds one step on either side, and a right turn on one. -/

theorem left {e : Expr} (he : e.Within turns length) {path : List Turn} (h : e.Path path) :
    (Turn.left :: path).count .right ≤ turns ∧ (Turn.left :: path).length ≤ length + 1 := by
  obtain ⟨hr, hn⟩ := he path h
  rw [List.count_cons_of_ne (by decide), List.length_cons]
  omega

theorem right {e : Expr} {turns' : Nat} (he : e.Within turns' length) (ht : turns' < turns)
    {path : List Turn} (h : e.Path path) :
    (Turn.right :: path).count .right ≤ turns ∧ (Turn.right :: path).length ≤ length + 1 := by
  obtain ⟨hr, hn⟩ := he path h
  rw [List.count_cons_self, List.length_cons]
  omega

variable {turns' : Nat} {e f : Expr} (he : e.Within turns length) (hf : f.Within turns' length)
  (ht : turns' < turns)
include he hf ht

theorem binary (op : BinaryOp) : (Expr.binary op e f).Within turns (length + 1) := by
  intro path hp
  cases hp with
  | binaryLeft hp => exact he.left hp
  | binaryRight hp => exact hf.right ht hp

theorem logical (op : LogicalOp) : (Expr.logical op e f).Within turns (length + 1) := by
  intro path hp
  cases hp with
  | logicalLeft hp => exact he.left hp
  | logicalRight hp => exact hf.right ht hp

theorem index : (Expr.index e f).Within turns (length + 1) := by
  intro path hp
  cases hp with
  | indexLeft hp => exact he.left hp
  | indexRight hp => exact hf.right ht hp

omit hf ht in
theorem member (property : String) : (Expr.member e property).Within turns (length + 1) := by
  intro path hp
  cases hp with
  | member hp => exact he.left hp

end Within

end Expr

inductive Stmt.Contains : Stmt → Expr → Prop where
  | expr (e : Expr) : Contains (.expr e) e
  | declare (name : String) (e : Expr) : Contains (.declare name e) e
  | assign (name : String) (e : Expr) : Contains (.assign name e) e
  | condition (c : Expr) (yes : List Stmt) (no : Option (List Stmt)) :
      Contains (.branch c yes no) c
  | yes {c : Expr} {yes : List Stmt} {no : Option (List Stmt)} {s : Stmt} {e : Expr}
      (hs : s ∈ yes) (h : Contains s e) : Contains (.branch c yes no) e
  | no {c : Expr} {yes no : List Stmt} {s : Stmt} {e : Expr} (hs : s ∈ no)
      (h : Contains s e) : Contains (.branch c yes (some no)) e
  | block {body : List Stmt} {s : Stmt} {e : Expr} (hs : s ∈ body) (h : Contains s e) :
      Contains (.block body) e
  | «return» (e : Expr) : Contains (.return (some e)) e

end ScoreSheet.Rule
