import ScoreSheet.Proofs.Keyed
import ScoreSheet.Proofs.Number.Zeros
import ScoreSheet.Rule.Value
set_option autoImplicit false

/-! A change of numbers is unseen if changed numbers have the same texts, compare alike, and
give the same results of arithmetic up to the change. Then it is unseen in whole values:
nothing that the language finds out about a value depends on it. Two changes are unseen,
the one that changes nothing and the one that merges the zeros. -/
namespace ScoreSheet.Rule

structure Unseen (f : Float → Float) : Prop where
  idem : ∀ x, f (f x) = f x
  fixed : ∀ {x}, Number.isFinite x = false → f x = x
  isNaN : ∀ {x y : Float}, f x = f y → x.isNaN = y.isNaN
  isFinite : ∀ {x y}, f x = f y → Number.isFinite x = Number.isFinite y
  display : ∀ {x y}, f x = f y → Number.display x = Number.display y
  toNat? : ∀ {x y}, f x = f y → Number.toNat? x = Number.toNat? y
  beq : ∀ {x x' y y'}, f x = f x' → f y = f y' → (x == y) = (x' == y')
  lt : ∀ {x x' y y'}, f x = f x' → f y = f y' → decide (x < y) = decide (x' < y')
  le : ∀ {x x' y y'}, f x = f x' → f y = f y' → decide (x ≤ y) = decide (x' ≤ y')
  neg : ∀ {x y}, f x = f y → f (-x) = f (-y)
  add : ∀ {x x' y y'}, f x = f x' → f y = f y' → f (x + y) = f (x' + y')
  sub : ∀ {x x' y y'}, f x = f x' → f y = f y' → f (x - y) = f (x' - y')
  mul : ∀ {x x' y y'}, f x = f x' → f y = f y' → f (x * y) = f (x' * y')
  div : ∀ {x x' y y'}, f x = f x' → f y = f y' → (y == 0.0) = false → f (x / y) = f (x' / y')
  remainder : ∀ {x x' y y'}, f x = f x' → f y = f y' →
    f (Number.remainder x y) = f (Number.remainder x' y')

theorem unseen_id : Unseen id := by
  constructor
  case idem => exact fun _ => rfl
  case fixed => exact fun _ => rfl
  case isNaN | isFinite | display | toNat? | neg =>
    rintro x y rfl
    rfl
  case beq | lt | le | add | sub | mul | remainder =>
    rintro x x' y y' rfl rfl
    rfl
  case div =>
    rintro x x' y y' rfl rfl _
    rfl

open Number in
theorem unseen_mergeZeros : Unseen mergeZeros where
  idem x := apply_mergeZeros (f := mergeZeros) rfl x
  fixed {x} h := by
    unfold mergeZeros
    split
    · rename_i zero
      rw [(beq_iff.1 zero).1.isFinite] at h
      exact absurd h (by decide)
    · rfl
  isNaN := Alike.isNaN
  isFinite := Alike.isFinite
  display := Alike.display
  toNat? := Alike.toNat?
  beq := Alike.beq
  lt := Alike.lt
  le := Alike.le
  neg := Alike.neg
  add := Alike.add
  sub := Alike.sub
  mul := Alike.mul
  div := Alike.div
  remainder := Alike.remainder

namespace Value

mutual

def mapNumbers (f : Float → Float) : Value → Value
  | undefined => undefined
  | null => null
  | bool b => bool b
  | number x => number (f x)
  | string s => string s
  | array items => array (mapItems f items)
  | object fields => object (mapFields f fields)

def mapItems (f : Float → Float) : List Value → List Value
  | [] => []
  | v :: rest => v.mapNumbers f :: mapItems f rest

def mapFields (f : Float → Float) : List (String × Value) → List (String × Value)
  | [] => []
  | (name, v) :: rest => (name, v.mapNumbers f) :: mapFields f rest

end

theorem mapItems_eq (f : Float → Float) (items : List Value) :
    mapItems f items = items.map (mapNumbers f) := by
  induction items with
  | nil => rfl
  | cons v rest ih => rw [mapItems, ih, List.map_cons]

theorem mapFields_eq (f : Float → Float) (fields : List (String × Value)) :
    mapFields f fields = Keyed.mapValues (mapNumbers f) fields := by
  induction fields with
  | nil => rfl
  | cons e rest ih => rw [mapFields, ih, Keyed.mapValues, Keyed.mapValues, List.map_cons]

mutual

theorem mapNumbers_id (v : Value) : v.mapNumbers id = v := by
  cases v with
  | array items => exact congrArg array (mapItems_id items)
  | object fields => exact congrArg object (mapFields_id fields)
  | _ => rfl

theorem mapItems_id (items : List Value) : mapItems id items = items := by
  match items with
  | [] => rfl
  | v :: rest => rw [mapItems, mapNumbers_id v, mapItems_id rest]

theorem mapFields_id (fields : List (String × Value)) : mapFields id fields = fields := by
  match fields with
  | [] => rfl
  | (name, v) :: rest => rw [mapFields, mapNumbers_id v, mapFields_id rest]

end

section Unseen
variable {f : Float → Float}

@[simp] theorem isNullish_mapNumbers (v : Value) :
    (v.mapNumbers f).isNullish = v.isNullish := by
  cases v <;> rfl

theorem truthy_mapNumbers (h : Unseen f) (v : Value) : (v.mapNumbers f).truthy = v.truthy := by
  cases v with
  | number x => rw [mapNumbers, truthy, truthy, h.beq (h.idem x) rfl, h.isNaN (h.idem x)]
  | _ => rfl

mutual

theorem toNumber_mapNumbers (h : Unseen f) (v : Value) :
    f (v.mapNumbers f).toNumber = f v.toNumber := by
  cases v with
  | number x => exact h.idem x
  | array items => exact itemsToNumber_mapItems h items
  | _ => rfl

theorem itemsToNumber_mapItems (h : Unseen f) (items : List Value) :
    f (itemsToNumber (mapItems f items)) = f (itemsToNumber items) := by
  match items with
  | [] => rfl
  | [v] => exact toNumber_mapNumbers h v
  | _ :: _ :: _ => rfl

end

mutual

theorem strictEquals_mapNumbers (h : Unseen f) (v w : Value) :
    (v.mapNumbers f).strictEquals (w.mapNumbers f) = v.strictEquals w := by
  cases v <;> cases w
  case number.number x y => exact h.beq (h.idem x) (h.idem y)
  case array.array a b => exact itemsEqual_mapItems h a b
  case object.object a b => exact fieldsEqual_mapFields h a b
  all_goals rfl

theorem itemsEqual_mapItems (h : Unseen f) (a b : List Value) :
    itemsEqual (mapItems f a) (mapItems f b) = itemsEqual a b := by
  match a, b with
  | [], [] | [], _ :: _ | _ :: _, [] => rfl
  | v :: a, w :: b =>
    simp only [mapItems, itemsEqual]
    rw [strictEquals_mapNumbers h v w, itemsEqual_mapItems h a b]

theorem fieldsEqual_mapFields (h : Unseen f) (a b : List (String × Value)) :
    fieldsEqual (mapFields f a) (mapFields f b) = fieldsEqual a b := by
  match a, b with
  | [], [] | [], _ :: _ | _ :: _, [] => rfl
  | (n, v) :: a, (m, w) :: b =>
    simp only [mapFields, fieldsEqual]
    rw [strictEquals_mapNumbers h v w, fieldsEqual_mapFields h a b]

end

theorem looseEquals_mapNumbers (h : Unseen f) (v w : Value) :
    (v.mapNumbers f).looseEquals (w.mapNumbers f) = v.looseEquals w := by
  have numbers := h.beq (toNumber_mapNumbers h v) (toNumber_mapNumbers h w)
  have strict := strictEquals_mapNumbers h v w
  unfold looseEquals
  rw [isNullish_mapNumbers, isNullish_mapNumbers]
  split
  · rfl
  · cases v <;> cases w <;> first | exact strict | exact numbers

mutual

theorem display_mapNumbers (h : Unseen f) (v : Value) :
    (v.mapNumbers f).display = v.display := by
  cases v with
  | number x => exact h.display (h.idem x)
  | array items => exact displayItems_mapItems h items
  | _ => rfl

theorem displayItems_mapItems (h : Unseen f) (items : List Value) :
    displayItems (mapItems f items) = displayItems items := by
  match items with
  | [] => rfl
  | [v] =>
    simp only [mapItems, displayItems, isNullish_mapNumbers]
    rw [display_mapNumbers h v]
  | v :: w :: rest =>
    have behind := displayItems_mapItems h (w :: rest)
    simp only [mapItems] at behind ⊢
    simp only [displayItems, isNullish_mapNumbers]
    rw [display_mapNumbers h v, behind]

end

end Unseen

end Value

end ScoreSheet.Rule
