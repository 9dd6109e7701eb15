import ScoreSheet.Proofs.Rule.Unseen
import ScoreSheet.Rule.Evaluation
set_option autoImplicit false

namespace ScoreSheet

def Datum.mapNumbers (f : Float → Float) : Datum → Datum
  | bool b => bool b
  | number x => number (f x)
  | text s => text s

def View.mapNumbers (f : Float → Float) (v : View) : View :=
  ⟨v.id, v.kind, v.value.map (Datum.mapNumbers f), v.disabled⟩

def Patch.mapNumbers (f : Float → Float) (p : Patch) : Patch :=
  ⟨p.value.map (Option.map (Datum.mapNumbers f)), p.disabled⟩

namespace Rule
open Value

variable {f : Float → Float}

theorem mapNumbers_unary (h : Unseen f) (op : UnaryOp) (v : Value) :
    (op.apply (v.mapNumbers f)).mapNumbers f = (op.apply v).mapNumbers f := by
  cases op with
  | not => rw [UnaryOp.apply, UnaryOp.apply, truthy_mapNumbers h]
  | negate => exact congrArg number (h.neg (toNumber_mapNumbers h v))
  | plus => exact congrArg number (toNumber_mapNumbers h v)

theorem isJoined_mapNumbers (v : Value) : (v.mapNumbers f).isJoined = v.isJoined := by
  cases v <;> rfl

theorem mapNumbers_add (h : Unseen f) (v w : Value) :
    (add (v.mapNumbers f) (w.mapNumbers f)).mapNumbers f = (add v w).mapNumbers f := by
  unfold add
  rw [isJoined_mapNumbers, isJoined_mapNumbers, display_mapNumbers h, display_mapNumbers h]
  split
  · rfl
  · exact congrArg number (h.add (toNumber_mapNumbers h v) (toNumber_mapNumbers h w))

theorem mapNumbers_compareWith (h : Unseen f) (texts : String → String → Bool)
    {numbers : Float → Float → Bool}
    (hn : ∀ {x x' y y'}, f x = f x' → f y = f y' → numbers x y = numbers x' y') (v w : Value) :
    compareWith texts numbers (v.mapNumbers f) (w.mapNumbers f) =
      compareWith texts numbers v w := by
  have compared := congrArg bool (hn (toNumber_mapNumbers h v) (toNumber_mapNumbers h w))
  cases v <;> cases w
  case string.string => rfl
  all_goals exact compared

theorem mapNumbers_ok {x y : Float} (h : f x = f y) :
    (Except.ok (number x) : Except Fault Value).map (mapNumbers f) =
      (Except.ok (number y)).map (mapNumbers f) := by
  rw [Except.map, Except.map, mapNumbers, mapNumbers, h]

theorem mapNumbers_divideWith (h : Unseen f) {g : Float → Float → Float}
    (hg : ∀ {x x' y y'}, f x = f x' → f y = f y' → (y == 0.0) = false → f (g x y) = f (g x' y'))
    (v w : Value) :
    (divideWith g (v.mapNumbers f) (w.mapNumbers f)).map (mapNumbers f) =
      (divideWith g v w).map (mapNumbers f) := by
  have zero := h.beq (toNumber_mapNumbers h w) (y := 0.0) rfl
  unfold divideWith
  rw [zero]
  split
  · rfl
  · rename_i divides
    exact mapNumbers_ok (hg (toNumber_mapNumbers h v) (toNumber_mapNumbers h w)
      (zero.trans (Bool.eq_false_iff.2 divides)))

theorem mapNumbers_binary (h : Unseen f) (op : BinaryOp) (v w : Value) :
    (op.apply (v.mapNumbers f) (w.mapNumbers f)).map (mapNumbers f) =
      (op.apply v w).map (mapNumbers f) := by
  have hv := toNumber_mapNumbers h v
  have hw := toNumber_mapNumbers h w
  cases op <;> simp only [BinaryOp.apply]
  case add => exact congrArg Except.ok (mapNumbers_add h v w)
  case subtract => exact mapNumbers_ok (h.sub hv hw)
  case multiply => exact mapNumbers_ok (h.mul hv hw)
  case divide => exact mapNumbers_divideWith h h.div v w
  case remainder => exact mapNumbers_divideWith h (fun hx hy _ => h.remainder hx hy) v w
  case equal | notEqual => rw [looseEquals_mapNumbers h]
  case identical | notIdentical => rw [strictEquals_mapNumbers h]
  case less => rw [mapNumbers_compareWith h _ h.lt]
  case lessEqual => rw [mapNumbers_compareWith h _ h.le]
  case greater => rw [mapNumbers_compareWith h _ fun hx hy => h.lt hy hx]
  case greaterEqual => rw [mapNumbers_compareWith h _ fun hx hy => h.le hy hx]

theorem decides_mapNumbers (h : Unseen f) (op : LogicalOp) (v : Value) :
    op.decides (v.mapNumbers f) = op.decides v := by
  cases op <;> simp only [LogicalOp.decides, truthy_mapNumbers h, isNullish_mapNumbers]

mutual

theorem mapNumbers_mapNumbers (h : Unseen f) (v : Value) :
    (v.mapNumbers f).mapNumbers f = v.mapNumbers f := by
  cases v with
  | number x => exact congrArg number (h.idem x)
  | array items => exact congrArg array (mapItems_mapItems h items)
  | object fields => exact congrArg object (mapFields_mapFields h fields)
  | _ => rfl

theorem mapItems_mapItems (h : Unseen f) (items : List Value) :
    mapItems f (mapItems f items) = mapItems f items := by
  match items with
  | [] => rfl
  | v :: rest => rw [mapItems, mapItems, mapNumbers_mapNumbers h v, mapItems_mapItems h rest]

theorem mapFields_mapFields (h : Unseen f) (fields : List (String × Value)) :
    mapFields f (mapFields f fields) = mapFields f fields := by
  match fields with
  | [] => rfl
  | (name, v) :: rest =>
    rw [mapFields, mapFields, mapNumbers_mapNumbers h v, mapFields_mapFields h rest]

end

theorem itemAt_mapNumbers (v : Value) (x : Float) :
    itemAt (v.mapNumbers f) x = (itemAt v x).mapNumbers f := by
  cases place : Number.toNat? x with
  | none => cases v <;> simp only [mapNumbers, itemAt, place]
  | some i =>
    cases v with
    | array items =>
      simp only [mapNumbers, itemAt, place, mapItems_eq, List.getElem?_map]
      cases items[i]? <;> rfl
    | string s =>
      simp only [mapNumbers, itemAt, place]
      cases s.toList[i]? <;> rfl
    | _ => simp only [mapNumbers, itemAt, place]

theorem itemAt_change (h : Unseen f) (v : Value) (x : Float) : itemAt v (f x) = itemAt v x := by
  unfold itemAt
  rw [h.toNat? (h.idem x)]

theorem mapNumbers_property (h : Unseen f) (v : Value) (name : String) :
    (property (v.mapNumbers f) name).map (mapNumbers f) =
      (property v name).map (mapNumbers f) := by
  cases v with
  | object fields =>
    simp only [mapNumbers, property, mapFields_eq, Keyed.get?_mapValues, Except.map]
    cases Keyed.get? fields name with
    | none => rfl
    | some w => exact congrArg Except.ok (mapNumbers_mapNumbers h w)
  | array items =>
    have length : (mapItems f items).length = items.length := by
      rw [mapItems_eq, List.length_map]
    simp only [mapNumbers, property, length]
    split
    · rfl
    · have item (x : Float) := itemAt_mapNumbers (f := f) (.array items) x
      simp only [mapNumbers] at item
      cases Number.read? name.toList with
      | none => rfl
      | some x =>
        simp only [Option.map_some, Option.getD_some, Except.map, item, mapNumbers_mapNumbers h]
  | _ => rfl

theorem mapNumbers_propertyAt (h : Unseen f) (v name : Value) :
    (propertyAt (v.mapNumbers f) (name.mapNumbers f)).map (mapNumbers f) =
      (propertyAt v name).map (mapNumbers f) := by
  have named : (property (v.mapNumbers f) (name.mapNumbers f).display).map (mapNumbers f) =
      (property v name.display).map (mapNumbers f) := by
    rw [display_mapNumbers h, mapNumbers_property h]
  have numbered (x : Float) : (Except.ok (itemAt (v.mapNumbers f) (f x)) :
      Except Fault Value).map (mapNumbers f) = (Except.ok (itemAt v x)).map (mapNumbers f) := by
    rw [itemAt_change h, itemAt_mapNumbers, Except.map, Except.map, mapNumbers_mapNumbers h]
  cases v <;> cases name
  case array.number x | string.number x => exact numbered x
  all_goals exact named

theorem spreadItems_mapNumbers (v : Value) :
    spreadItems (v.mapNumbers f) = (spreadItems v).map (mapItems f) := by
  cases v with
  | array items => rfl
  | string s =>
    refine congrArg Except.ok ?_
    rw [mapItems_eq, List.map_map]
    rfl
  | _ => rfl

theorem toValue_mapNumbers (v : View) :
    (v.mapNumbers f).toValue = v.toValue.mapNumbers f := by
  obtain ⟨id, kind, value, disabled⟩ := v
  cases value with
  | none => rfl
  | some d => cases d <;> rfl

theorem idsOf_mapItems (arguments : List Value) :
    idsOf (mapItems f arguments) = idsOf arguments := by
  rw [mapItems_eq, idsOf, idsOf, List.filterMap_map]
  refine congrArg (List.filterMap · arguments) (funext fun v => ?_)
  cases v <;> rfl

theorem selected_mapNumbers (views : List View) (ids : List String) :
    selected (views.map (View.mapNumbers f)) ids =
      (selected views ids).map (View.mapNumbers f) :=
  List.filter_map

theorem isChecked_mapNumbers (v : View) : isChecked (v.mapNumbers f) = isChecked v := by
  obtain ⟨id, kind, value, disabled⟩ := v
  refine congrArg (kind == .checkbox && ·) ?_
  cases value with
  | none => rfl
  | some d => cases d <;> rfl

theorem countChecked_mapNumbers (views : List View) (ids : List String) :
    countChecked (views.map (View.mapNumbers f)) ids = countChecked views ids := by
  rw [countChecked, countChecked, selected_mapNumbers, List.countP_map]
  exact congrArg (List.countP · _) (funext isChecked_mapNumbers)

theorem allAreChecked_mapNumbers (views : List View) (ids : List String) :
    allAreChecked (views.map (View.mapNumbers f)) ids = allAreChecked views ids := by
  rw [allAreChecked, allAreChecked, countChecked_mapNumbers, selected_mapNumbers,
    List.countP_map]
  rfl

theorem summand?_mapNumbers (v : View) : summand? (v.mapNumbers f) = (summand? v).map f := by
  obtain ⟨id, kind, value, disabled⟩ := v
  cases kind <;> cases value with
  | none => rfl
  | some d => cases d <;> rfl

theorem change_foldl_add (h : Unseen f) (numbers : List Float) {x y : Float} (hx : f x = f y) :
    f ((numbers.map f).foldl (· + ·) x) = f (numbers.foldl (· + ·) y) := by
  induction numbers generalizing x y with
  | nil => exact hx
  | cons z rest ih => exact ih (h.add hx (h.idem z))

theorem change_sum (h : Unseen f) (views : List View) (ids : List String) :
    f (sum (views.map (View.mapNumbers f)) ids) = f (sum views ids) := by
  have summands : (selected (views.map (View.mapNumbers f)) ids).filterMap summand? =
      ((selected views ids).filterMap summand?).map f := by
    rw [selected_mapNumbers, List.filterMap_map, List.map_filterMap]
    exact congrArg (List.filterMap · _) (funext summand?_mapNumbers)
  rw [sum, sum, summands]
  exact change_foldl_add h _ rfl

theorem compareCount_mapItems (h : Unseen f) {test : Float → Float → Bool}
    (ht : ∀ {x x' y y'}, f x = f x' → f y = f y' → test x y = test x' y') (a : Aggregate)
    (views : List View) (arguments : List Value) :
    compareCount test a (views.map (View.mapNumbers f)) (mapItems f arguments) =
      compareCount test a views arguments := by
  cases arguments with
  | nil => rfl
  | cons n rest =>
    rw [mapItems, compareCount, compareCount, countChecked_mapNumbers, idsOf_mapItems,
      ht rfl (toNumber_mapNumbers h n)]

theorem mapNumbers_aggregate (h : Unseen f) (a : Aggregate) (views : List View)
    (arguments : List Value) :
    (a.apply (views.map (View.mapNumbers f)) (mapItems f arguments)).map (mapNumbers f) =
      (a.apply views arguments).map (mapNumbers f) := by
  cases a <;> simp only [Aggregate.apply]
  case countChecked => rw [countChecked_mapNumbers, idsOf_mapItems]
  case allAreChecked => rw [allAreChecked_mapNumbers, idsOf_mapItems]
  case sum =>
    rw [idsOf_mapItems]
    exact mapNumbers_ok (change_sum h views _)
  case nAreChecked => rw [compareCount_mapItems h h.beq]
  case nOrMoreAreChecked => rw [compareCount_mapItems h fun hx hy => h.le hy hx]
  case nOrLessAreChecked => rw [compareCount_mapItems h h.le]

theorem patchValue_mapNumbers (h : Unseen f) (v : Option Value) :
    patchValue (v.map (mapNumbers f)) =
      (patchValue v).map (Option.map (Option.map (Datum.mapNumbers f))) := by
  cases v with
  | none => rfl
  | some v =>
    cases v with
    | number x =>
      simp only [Option.map_some, mapNumbers, patchValue, h.isFinite (h.idem x)]
      split
      · rfl
      · rename_i infinite
        rw [h.fixed (Bool.eq_false_iff.2 infinite)]
        rfl
    | _ => rfl

theorem patchDisabled_mapNumbers (h : Unseen f) (v : Option Value) :
    patchDisabled (v.map (mapNumbers f)) = patchDisabled v := by
  cases v with
  | none => rfl
  | some v =>
    have truthy := congrArg some (truthy_mapNumbers h v)
    cases v
    case undefined | null => rfl
    all_goals exact truthy

theorem mapNumbers_datum (h : Unseen f) (d : Datum) :
    (d.mapNumbers f).mapNumbers f = d.mapNumbers f := by
  cases d with
  | number x => exact congrArg Datum.number (h.idem x)
  | _ => rfl

theorem mapNumbers_patch (h : Unseen f) (p : Patch) :
    (p.mapNumbers f).mapNumbers f = p.mapNumbers f := by
  obtain ⟨value, disabled⟩ := p
  rcases value with _ | _ | d
  · rfl
  · rfl
  · exact congrArg (fun d => (⟨some (some d), disabled⟩ : Patch)) (mapNumbers_datum h d)

theorem mapNumbers_id (p : Patch) : p.mapNumbers id = p := by
  obtain ⟨value, disabled⟩ := p
  rcases value with _ | _ | d
  · rfl
  · rfl
  · cases d <;> rfl

theorem patchOf_mapFields (h : Unseen f) (fields : Keyed Value) :
    patchOf (mapFields f fields) = (patchOf fields).map (Patch.mapNumbers f) := by
  rw [patchOf, patchOf, mapFields_eq, Keyed.get?_mapValues, Keyed.get?_mapValues,
    patchValue_mapNumbers h, patchDisabled_mapNumbers h]
  cases patchValue (Keyed.get? fields "value") <;> rfl

theorem mapNumbers_patchOf (h : Unseen f) (fields : Keyed Value) :
    (patchOf (mapFields f fields)).map (Patch.mapNumbers f) =
      (patchOf fields).map (Patch.mapNumbers f) := by
  rw [patchOf_mapFields h]
  cases patchOf fields with
  | error e => rfl
  | ok p => exact congrArg Except.ok (mapNumbers_patch h p)

end Rule

end ScoreSheet
