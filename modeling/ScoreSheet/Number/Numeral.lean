import ScoreSheet.Number.Shortest
set_option autoImplicit false

namespace ScoreSheet.Number

def isDigit (c : Char) : Bool := '0' ≤ c && c ≤ '9'

def digitValue (c : Char) : Nat := c.toNat - '0'.toNat

def ofDigits (cs : List Char) : Nat :=
  cs.foldl (fun n c => n * 10 + digitValue c) 0

/-- `digits * 10 ^ exponent`, correctly rounded. Magnitudes far outside the range
of binary64 numbers are infinite or zero without computing the power. -/
def ofDecimal (digits : Nat) (exponent : Int) : Float :=
  let size := digitCount digits + exponent
  if digits = 0 then 0.0
  else if 310 < size then infinity
  else if size < -330 then 0.0
  else Float.ofScientific digits (decide (exponent < 0)) exponent.natAbs

def unsigned : List Char → Bool × List Char
  | '+' :: cs => (false, cs)
  | '-' :: cs => (true, cs)
  | cs => (false, cs)

def readExponent? : List Char → Option Int
  | [] => some 0
  | c :: cs =>
    if c = 'e' || c = 'E' then
      let (negative, digits) := unsigned cs
      if digits.isEmpty || !digits.all isDigit then none
      else some (if negative then -(ofDigits digits : Int) else ofDigits digits)
    else none

def readFraction : List Char → List Char × List Char
  | '.' :: cs => (cs.takeWhile isDigit, cs.dropWhile isDigit)
  | cs => ([], cs)

def read? (cs : List Char) : Option Float :=
  let (negative, body) := unsigned cs
  let whole := body.takeWhile isDigit
  let (fraction, rest) := readFraction (body.dropWhile isDigit)
  if whole.isEmpty && fraction.isEmpty then none
  else
    (readExponent? rest).map fun e =>
      let x := ofDecimal (ofDigits (whole ++ fraction)) (e - fraction.length)
      if negative then -x else x

namespace Decimal

def positional (d : Decimal) : List Char :=
  let ds := Nat.toDigits 10 d.digits
  let places := (-d.exponent).toNat
  if 0 ≤ d.exponent then ds ++ List.replicate d.exponent.toNat '0'
  else if places < ds.length then
    ds.take (ds.length - places) ++ '.' :: ds.drop (ds.length - places)
  else '0' :: '.' :: (List.replicate (places - ds.length) '0' ++ ds)

end Decimal

def signed (negative : Bool) (cs : List Char) : String :=
  .ofList (if negative then '-' :: cs else cs)

def plain (x : Float) : String :=
  match parts x with
  | .nan => "NaN"
  | .infinite negative => signed negative ['i', 'n', 'f']
  | .finite negative b =>
    signed negative (if b.mantissa = 0 then ['0'] else (b.shortest .upward).positional)

/-- The number as a sheet shows it: integers below `10 ^ 21` with all their
digits, any other number with the shortest digits, both zeros as `0`. -/
def display (x : Float) : String :=
  match parts x with
  | .nan => "NaN"
  | .infinite negative => signed negative "Infinity".toList
  | .finite negative b =>
    if b.mantissa = 0 then "0"
    else if b.isIntegral && decide (b.floor < Nat.pow 10 21) then
      signed negative (Nat.toDigits 10 b.floor)
    else signed negative (b.shortest .upward).positional

end ScoreSheet.Number
