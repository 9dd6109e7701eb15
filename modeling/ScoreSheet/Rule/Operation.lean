import ScoreSheet.Rule.Aggregate
import ScoreSheet.Rule.Fault
import ScoreSheet.Rule.Syntax
set_option autoImplicit false

namespace ScoreSheet.Rule

def UnaryOp.apply (op : UnaryOp) (v : Value) : Value :=
  match op with
  | .not => .bool !v.truthy
  | .negate => .number (-v.toNumber)
  | .plus => .number v.toNumber

def Value.isJoined : Value → Bool
  | .string _ | .array _ | .object _ => true
  | _ => false

def add (v w : Value) : Value :=
  if v.isJoined || w.isJoined then .string (v.display ++ w.display)
  else .number (v.toNumber + w.toNumber)

/-- Compares two texts character by character and any other values as numbers. -/
def compareWith (texts : String → String → Bool) (numbers : Float → Float → Bool)
    (v w : Value) : Value :=
  match v, w with
  | .string s, .string t => .bool (texts s t)
  | v, w => .bool (numbers v.toNumber w.toNumber)

def divideWith (f : Float → Float → Float) (v w : Value) : Except Fault Value :=
  if w.toNumber == 0.0 then .error .divisionByZero
  else .ok (.number (f v.toNumber w.toNumber))

def BinaryOp.apply (op : BinaryOp) (v w : Value) : Except Fault Value :=
  match op with
  | .add => .ok (Rule.add v w)
  | .subtract => .ok (.number (v.toNumber - w.toNumber))
  | .multiply => .ok (.number (v.toNumber * w.toNumber))
  | .divide => divideWith (· / ·) v w
  | .remainder => divideWith Number.remainder v w
  | .equal => .ok (.bool (v.looseEquals w))
  | .notEqual => .ok (.bool !(v.looseEquals w))
  | .identical => .ok (.bool (v.strictEquals w))
  | .notIdentical => .ok (.bool !(v.strictEquals w))
  | .less => .ok (compareWith (fun s t => decide (s < t)) (fun x y => decide (x < y)) v w)
  | .lessEqual => .ok (compareWith (fun s t => !decide (t < s)) (fun x y => decide (x ≤ y)) v w)
  | .greater => .ok (compareWith (fun s t => decide (t < s)) (fun x y => decide (y < x)) v w)
  | .greaterEqual =>
    .ok (compareWith (fun s t => !decide (s < t)) (fun x y => decide (y ≤ x)) v w)

def LogicalOp.decides (op : LogicalOp) (v : Value) : Bool :=
  match op with
  | .and => !v.truthy
  | .or => v.truthy
  | .coalesce => !v.isNullish

/-- The item of an array or the character of a text at a whole number. -/
def itemAt (v : Value) (x : Float) : Value :=
  match v, Number.toNat? x with
  | .array items, some i => (items[i]?).getD .undefined
  | .string s, some i => ((s.toList[i]?).map fun c => Value.string c.toString).getD .undefined
  | _, _ => .undefined

/-- The property of a value. Arrays and texts have a length and, under numerals,
their items. -/
def property (v : Value) (name : String) : Except Fault Value :=
  match v with
  | .undefined | .null => .error (.noProperties v.typeName name)
  | .object fields => .ok ((Keyed.get? fields name).getD .undefined)
  | .array items =>
    if name = "length" then .ok (.number (Float.ofNat items.length))
    else .ok (((Number.read? name.toList).map (itemAt v)).getD .undefined)
  | .string s =>
    if name = "length" then .ok (.number (Float.ofNat s.length))
    else .ok (((Number.read? name.toList).map (itemAt v)).getD .undefined)
  | .bool _ | .number _ => .ok .undefined

def propertyAt (v name : Value) : Except Fault Value :=
  match v, name with
  | .array _, .number x | .string _, .number x => .ok (itemAt v x)
  | _, _ => property v name.display

def spreadItems : Value → Except Fault (List Value)
  | .array items => .ok items
  | .string s => .ok (s.toList.map fun c => .string c.toString)
  | v => .error (.notIterable v.typeName)

def compareCount (test : Float → Float → Bool) (a : Aggregate) (views : List View)
    (arguments : List Value) : Except Fault Value :=
  match arguments with
  | [] => .error (.missingCount a.name)
  | n :: rest =>
    .ok (.bool (test (Float.ofNat (countChecked views (idsOf rest))) n.toNumber))

def Aggregate.apply (a : Aggregate) (views : List View) (arguments : List Value) :
    Except Fault Value :=
  match a with
  | .countChecked => .ok (.number (Float.ofNat (Rule.countChecked views (idsOf arguments))))
  | .allAreChecked => .ok (.bool (Rule.allAreChecked views (idsOf arguments)))
  | .sum => .ok (.number (Rule.sum views (idsOf arguments)))
  | .nAreChecked => compareCount (· == ·) a views arguments
  | .nOrMoreAreChecked => compareCount (fun x y => decide (y ≤ x)) a views arguments
  | .nOrLessAreChecked => compareCount (fun x y => decide (x ≤ y)) a views arguments

/-- The value that an update stores: missing or `undefined` leaves it alone and
`null` clears it. -/
def patchValue : Option Value → Except Fault (Option (Option Datum))
  | none | some .undefined => .ok none
  | some .null => .ok (some none)
  | some (.bool b) => .ok (some (some (.bool b)))
  | some (.string s) => .ok (some (some (.text s)))
  | some (.number x) =>
    if Number.isFinite x then .ok (some (some (.number x))) else .error (.notFinite x)
  | some v => .error (.notStorable v.typeName)

def patchDisabled : Option Value → Option Bool
  | none | some .undefined | some .null => none
  | some v => some v.truthy

def patchOf (fields : Keyed Value) : Except Fault Patch :=
  (patchValue (Keyed.get? fields "value")).map fun value =>
    ⟨value, patchDisabled (Keyed.get? fields "disabled")⟩

end ScoreSheet.Rule
