import ScoreSheet.Number.Binary
set_option autoImplicit false

/-! A magnitude stands for the interval of reals that round to it. On the grid of
`n` significant digits its two neighbours are tried for `n = 1, 2, …, 17`; the
first grid with a neighbour inside the interval gives the digits. -/
namespace ScoreSheet.Number

structure Decimal where
  digits : Nat
  exponent : Int
deriving DecidableEq

inductive Tie where
  | toEven
  | upward
deriving DecidableEq

def digitCount (n : Nat) : Nat := (Nat.toDigits 10 n).length

def compareScaled (a : Nat) (i : Int) (n : Nat) (j : Int) : Ordering :=
  compare (a * Nat.pow 10 i.toNat * Nat.pow 2 (-j).toNat)
    (n * Nat.pow 2 j.toNat * Nat.pow 10 (-i).toNat)

namespace Binary

/-- Whether `d` lies among the reals that round to `b`: between the midpoints to
its neighbours, which belong to it exactly when the mantissa is even. -/
def readsBack (b : Binary) (d : Decimal) : Bool :=
  let low := if b.narrowBelow then 4 * b.mantissa - 1 else 4 * b.mantissa - 2
  let high := 4 * b.mantissa + 2
  let closed := b.mantissa % 2 == 0
  let below := compareScaled d.digits d.exponent low (b.exponent - 2)
  let above := compareScaled d.digits d.exponent high (b.exponent - 2)
  (below == .gt || (closed && below == .eq)) && (above == .lt || (closed && above == .eq))

def scale (b : Binary) : Int :=
  if b.floor = 0 then
    1 - (digitCount ((Nat.pow 2 (-b.exponent).toNat - 1) / b.mantissa) : Int)
  else digitCount b.floor

def quotient (b : Binary) (e : Int) : Nat :=
  b.mantissa * Nat.pow 2 b.exponent.toNat * Nat.pow 10 (-e).toNat /
    (Nat.pow 2 (-b.exponent).toNat * Nat.pow 10 e.toNat)

def onGrid? (b : Binary) (tie : Tie) (e : Int) : Option Decimal :=
  let low : Decimal := ⟨b.quotient e, e⟩
  let high : Decimal := ⟨b.quotient e + 1, e⟩
  match b.readsBack low, b.readsBack high with
  | false, false => none
  | true, false => some low
  | false, true => some high
  | true, true =>
    match compareScaled (2 * low.digits + 1) e (2 * b.mantissa) b.exponent with
    | .gt => some low
    | .lt => some high
    | .eq =>
      match tie with
      | .toEven => some (if low.digits % 2 = 0 then low else high)
      | .upward => some high

def exact (b : Binary) : Decimal :=
  ⟨b.mantissa * Nat.pow 2 b.exponent.toNat * Nat.pow 5 (-b.exponent).toNat, min b.exponent 0⟩

end Binary

namespace Decimal

def stripZeros : Nat → Decimal → Decimal
  | 0, d => d
  | n + 1, d =>
    if d.digits % 10 = 0 then stripZeros n ⟨d.digits / 10, d.exponent + 1⟩ else d

end Decimal

/-- The shortest decimal that reads back as a nonzero magnitude, the nearest of
those, and by `tie` of two equally near ones. -/
def Binary.shortest (b : Binary) (tie : Tie) : Decimal :=
  let found := (List.range 17).findSome? fun (n : Nat) => b.onGrid? tie (b.scale - 1 - (n : Int))
  let d := found.getD b.exact
  d.stripZeros (digitCount d.digits - 1)

end ScoreSheet.Number
