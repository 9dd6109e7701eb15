set_option autoImplicit false

/-! A finite number is `mantissa * 2 ^ exponent` with a sign. Everything that has to
be exact (integrality, remainders, the choice of digits) is computed on these
naturals and never on rounded quotients. -/
namespace ScoreSheet.Number

/-- The magnitude of a finite binary64 number: `mantissa * 2 ^ exponent`.
`narrowBelow` says that the gap to the number below is half the gap above. -/
structure Binary where
  mantissa : Nat
  exponent : Int
  narrowBelow : Bool
deriving DecidableEq

inductive Parts where
  | nan
  | infinite (negative : Bool)
  | finite (negative : Bool) (magnitude : Binary)
deriving DecidableEq

def nan : Float := 0.0 / 0.0

def infinity : Float := 1.0 / 0.0

def Binary.ofFields (e f : Nat) : Binary :=
  if e = 0 then ⟨f, -1074, false⟩
  else ⟨Nat.pow 2 52 + f, (e : Int) - 1075, f == 0 && decide (1 < e)⟩

def parts (x : Float) : Parts :=
  let word := x.toBits.toNat
  let negative := decide (Nat.pow 2 63 ≤ word)
  let e := word / Nat.pow 2 52 % Nat.pow 2 11
  let f := word % Nat.pow 2 52
  if e = 2047 then
    if f = 0 then .infinite negative else .nan
  else .finite negative (.ofFields e f)

namespace Binary

def floor (b : Binary) : Nat :=
  b.mantissa * Nat.pow 2 b.exponent.toNat / Nat.pow 2 (-b.exponent).toNat

def isIntegral (b : Binary) : Bool :=
  b.mantissa % Nat.pow 2 (-b.exponent).toNat == 0

end Binary

def isFinite (x : Float) : Bool :=
  match parts x with
  | .finite .. => true
  | _ => false

def toNat? (x : Float) : Option Nat :=
  match parts x with
  | .finite negative b =>
    if b.isIntegral && (!negative || b.mantissa == 0) then some b.floor else none
  | _ => none

def toInt? (x : Float) : Option Int :=
  match parts x with
  | .finite negative b =>
    if b.isIntegral then some (if negative then -(b.floor : Int) else b.floor) else none
  | _ => none

def powerOfTwo (q : Int) : Float :=
  if q < -1022 then .ofBits (Nat.pow 2 (q + 1074).toNat).toUInt64
  else .ofBits ((q + 1023).toNat * Nat.pow 2 52).toUInt64

/-- `m * 2 ^ q`, exact whenever a binary64 number has that value and `m < 2 ^ 53`. -/
def scaled (m : Nat) (q : Int) : Float :=
  Float.ofNat m * powerOfTwo q

/-- The remainder of truncated division, exact and with the sign of the dividend.
It is not a number for an infinite dividend or a zero divisor; an infinite divisor
leaves the dividend as it is. -/
def remainder (x y : Float) : Float :=
  match parts x, parts y with
  | .finite negative a, .finite _ b =>
    let q := min a.exponent b.exponent
    let dividend := a.mantissa * Nat.pow 2 (a.exponent - q).toNat
    let divisor := b.mantissa * Nat.pow 2 (b.exponent - q).toNat
    if divisor = 0 then nan
    else
      let r := scaled (dividend % divisor) q
      if negative then -r else r
  | .finite .., .infinite _ => x
  | _, _ => nan

end ScoreSheet.Number
