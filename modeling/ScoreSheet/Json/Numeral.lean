import ScoreSheet.Json.Basic
import ScoreSheet.Number.Numeral
set_option autoImplicit false

/-! Reading keeps the leading digits that fit 64 bits as a whole number, rounds it
once and scales it by a power of ten. Writing takes the shortest digits, with an
exponent only for very small and very large numbers. -/
namespace ScoreSheet.Json

def significandLimit : Nat := Nat.pow 2 64 - 1

/-- Appends leading digits to a significand while it fits; gives back the others. -/
def absorb (significand : Nat) : List Char → Nat × List Char
  | [] => (significand, [])
  | c :: cs =>
    let next := significand * 10 + Number.digitValue c
    if next ≤ significandLimit then absorb next cs else (significand, c :: cs)

def powerOfTen (n : Nat) : Float := Float.ofScientific 1 false n

/-- `x * 10 ^ exponent` with one rounding for each power up to `10 ^ 308`; `none`
if that is infinite. -/
def scaleByTen : Nat → Float → Int → Option Float
  | 0, x, _ => some x
  | steps + 1, x, exponent =>
    if exponent.natAbs ≤ 308 then
      if 0 ≤ exponent then
        let y := x * powerOfTen exponent.toNat
        if Number.isFinite y then some y else none
      else some (x / powerOfTen exponent.natAbs)
    else if x == 0.0 then some x
    else if 0 ≤ exponent then none
    else scaleByTen steps (x / powerOfTen 308) (exponent + 308)

def realOfParts? (negative : Bool) (significand : Nat) (exponent : Int) : Option Json :=
  (scaleByTen (exponent.natAbs / 308 + 1) (Float.ofNat significand) exponent).map fun x =>
    real (if negative then -x else x)

/-- A numeral without fraction and exponent whose digits fit 64 bits. A negative
one is a whole number if it fits 64 bits with its sign and is not zero. -/
def wholeNumber (negative : Bool) (significand : Nat) : Json :=
  if negative then
    if 0 < significand ∧ significand ≤ Nat.pow 2 63 then integer (-(significand : Int))
    else real (-Float.ofNat significand)
  else integer significand

def leadingExponent (d : Number.Decimal) : Int :=
  (Number.digitCount d.digits : Int) - 1 + d.exponent

def pointed : List Char → List Char
  | [] => []
  | [c] => [c]
  | c :: cs => c :: '.' :: cs

def realDigits (d : Number.Decimal) : List Char :=
  let e := leadingExponent d
  if e < -5 then pointed (Nat.toDigits 10 d.digits) ++ 'e' :: '-' :: Nat.toDigits 10 e.natAbs
  else if 16 ≤ e then
    pointed (Nat.toDigits 10 d.digits) ++ 'e' :: '+' :: Nat.toDigits 10 e.natAbs
  else if 0 ≤ d.exponent then d.positional ++ ['.', '0']
  else d.positional

/-- The text of a number that is not written as a whole one: at least one place
behind the point, and an exponent below `10 ^ -5` and from `10 ^ 16` on. What is
not finite has no numeral. -/
def realText (x : Float) : String :=
  match Number.parts x with
  | .finite negative b =>
    if b.mantissa = 0 then Number.signed negative ['0', '.', '0']
    else Number.signed negative (realDigits (b.shortest .toEven))
  | _ => "null"

end ScoreSheet.Json
