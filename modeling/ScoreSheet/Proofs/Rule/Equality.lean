import Mathlib.Data.List.Perm.Subperm
import ScoreSheet.Proofs.Rule.Unseen
set_option autoImplicit false

/-! Two values are strictly equal if they hold no number that is not a number and become the same
value when the zeros are merged. So strict equality is symmetric and transitive and finds a
value equal to itself unless it holds such a number, and nothing that a value shows
distinguishes strictly equal ones. Loose equality is symmetric and contains it. -/
namespace ScoreSheet.Rule.Value
open Number (mergeZeros)

mutual

def hasNaN : Value → Bool
  | number x => x.isNaN
  | array items => itemsHaveNaN items
  | object fields => fieldsHaveNaN fields
  | undefined | null | bool _ | string _ => false

def itemsHaveNaN : List Value → Bool
  | [] => false
  | v :: rest => v.hasNaN || itemsHaveNaN rest

def fieldsHaveNaN : List (String × Value) → Bool
  | [] => false
  | (_, v) :: rest => v.hasNaN || fieldsHaveNaN rest

end

section Unseen
variable {f : Float → Float}

mutual

theorem hasNaN_mapNumbers (h : Unseen f) (v : Value) : (v.mapNumbers f).hasNaN = v.hasNaN := by
  cases v with
  | number x => exact h.isNaN (h.idem x)
  | array items => exact itemsHaveNaN_mapItems h items
  | object fields => exact fieldsHaveNaN_mapFields h fields
  | _ => rfl

theorem itemsHaveNaN_mapItems (h : Unseen f) (items : List Value) :
    itemsHaveNaN (mapItems f items) = itemsHaveNaN items := by
  match items with
  | [] => rfl
  | v :: rest =>
    simp only [mapItems, itemsHaveNaN]
    rw [hasNaN_mapNumbers h v, itemsHaveNaN_mapItems h rest]

theorem fieldsHaveNaN_mapFields (h : Unseen f) (fields : List (String × Value)) :
    fieldsHaveNaN (mapFields f fields) = fieldsHaveNaN fields := by
  match fields with
  | [] => rfl
  | (_, v) :: rest =>
    simp only [mapFields, fieldsHaveNaN]
    rw [hasNaN_mapNumbers h v, fieldsHaveNaN_mapFields h rest]

end

end Unseen

mutual

/-- Strictly equal values are the same but for the signs of zeros. -/
theorem strictEquals_iff (v w : Value) : v.strictEquals w = true ↔
    v.mapNumbers mergeZeros = w.mapNumbers mergeZeros ∧ v.hasNaN = false := by
  cases v <;> cases w
  case undefined.undefined | null.null => exact iff_of_true rfl ⟨rfl, rfl⟩
  case bool.bool a b => simp [strictEquals, mapNumbers, hasNaN]
  case string.string s t => simp [strictEquals, mapNumbers, hasNaN]
  case number.number x y =>
    simp only [strictEquals, mapNumbers, hasNaN, number.injEq]
    exact Number.beq_iff
  case array.array a b =>
    simp only [strictEquals, mapNumbers, hasNaN, array.injEq]
    exact itemsEqual_iff a b
  case object.object a b =>
    simp only [strictEquals, mapNumbers, hasNaN, object.injEq]
    exact fieldsEqual_iff a b
  all_goals exact iff_of_false (fun h => nomatch h) (fun h => nomatch h.1)

theorem itemsEqual_iff (a b : List Value) : itemsEqual a b = true ↔
    mapItems mergeZeros a = mapItems mergeZeros b ∧ itemsHaveNaN a = false := by
  match a, b with
  | [], [] => exact iff_of_true rfl ⟨rfl, rfl⟩
  | [], _ :: _ | _ :: _, [] => exact iff_of_false (fun h => nomatch h) (fun h => nomatch h.1)
  | v :: a, w :: b =>
    simp only [itemsEqual, mapItems, itemsHaveNaN, Bool.and_eq_true, Bool.or_eq_false_iff,
      List.cons.injEq, strictEquals_iff v w, itemsEqual_iff a b]
    exact and_and_and_comm

theorem fieldsEqual_iff (a b : List (String × Value)) : fieldsEqual a b = true ↔
    mapFields mergeZeros a = mapFields mergeZeros b ∧ fieldsHaveNaN a = false := by
  match a, b with
  | [], [] => exact iff_of_true rfl ⟨rfl, rfl⟩
  | [], _ :: _ | _ :: _, [] => exact iff_of_false (fun h => nomatch h) (fun h => nomatch h.1)
  | (n, v) :: a, (m, w) :: b =>
    simp only [fieldsEqual, mapFields, fieldsHaveNaN, Bool.and_eq_true, Bool.or_eq_false_iff,
      List.cons.injEq, Prod.mk.injEq, beq_iff_eq, strictEquals_iff v w, fieldsEqual_iff a b]
    tauto

end

/-- Whether both sides have as many fields, and each one on the left has an equal one of its
name on the right. -/
def fieldsMatch (a b : Keyed Value) : Bool :=
  a.length == b.length && a.all fun f => (Keyed.get? b f.1).any f.2.strictEquals

theorem names_of_fieldsEqual {a b : Keyed Value} (h : fieldsEqual a b = true) :
    a.map Prod.fst = b.map Prod.fst := by
  induction a generalizing b with
  | nil =>
    cases b with
    | nil => rfl
    | cons g b => cases h
  | cons f a ih =>
    cases b with
    | nil => cases h
    | cons g b =>
      simp only [fieldsEqual, Bool.and_eq_true, beq_iff_eq] at h
      rw [List.map_cons, List.map_cons, h.1.1, ih h.2]

/-- As many distinct names, all of which are on the other side, are all names of that side. -/
theorem names_of_fieldsMatch {a b : Keyed Value} (ha : a.Ascending) (hb : b.Ascending)
    (h : fieldsMatch a b = true) : a.map Prod.fst = b.map Prod.fst := by
  obtain ⟨size, found⟩ := Bool.and_eq_true_iff.1 h
  have known : a.map Prod.fst ⊆ b.map Prod.fst := by
    intro name hn
    obtain ⟨f, hf, rfl⟩ := List.mem_map.1 hn
    obtain ⟨w, hw, -⟩ := (Option.any_eq_true _ _).1 (List.all_eq_true.1 found f hf)
    exact List.mem_map.2 ⟨(f.1, w), Keyed.mem_of_get? hw, rfl⟩
  have enough : (b.map Prod.fst).length ≤ (a.map Prod.fst).length := by
    rw [List.length_map, List.length_map]
    exact Nat.le_of_eq (beq_iff_eq.1 size).symm
  have perm := (List.subperm_of_subset ha.nodup known).perm_of_length_le enough
  refine perm.eq_of_pairwise ?_ (List.pairwise_map.2 ha) (List.pairwise_map.2 hb)
  exact fun _ _ _ _ less greater => absurd greater (String.lt_asymm less)

theorem fieldsEqual_of_names {a b : Keyed Value} (once : (a.map Prod.fst).Nodup)
    (same : a.map Prod.fst = b.map Prod.fst) :
    fieldsEqual a b = a.all fun f => (Keyed.get? b f.1).any f.2.strictEquals := by
  induction a generalizing b with
  | nil =>
    cases b with
    | nil => rfl
    | cons g b => cases same
  | cons f a ih =>
    cases b with
    | nil => cases same
    | cons g b =>
      obtain ⟨first, later⟩ := List.cons.inj same
      obtain ⟨new, once⟩ := List.nodup_cons.1 once
      have rest : ∀ e ∈ a, Keyed.get? (g :: b) e.1 = Keyed.get? b e.1 := by
        intro e he
        rw [Keyed.get?_cons, if_neg]
        intro repeated
        exact new (List.mem_map.2 ⟨e, he, repeated.trans first.symm⟩)
      have others : (a.all fun e => (Keyed.get? (g :: b) e.1).any e.2.strictEquals) =
          a.all fun e => (Keyed.get? b e.1).any e.2.strictEquals := by
        rw [Bool.eq_iff_iff, List.all_eq_true, List.all_eq_true]
        exact forall₂_congr fun e he => by rw [rest e he]
      rw [fieldsEqual, beq_iff_eq.2 first, Bool.true_and, ih once later, List.all_cons, others,
        Keyed.get?_cons, if_pos first, Option.any_some]

/-- Objects with their names in order are compared as by looking up the fields of the one in
the other. -/
theorem fieldsEqual_eq_fieldsMatch {a b : Keyed Value} (ha : a.Ascending) (hb : b.Ascending) :
    fieldsEqual a b = fieldsMatch a b := by
  rw [Bool.eq_iff_iff]
  constructor
  · intro h
    have same := names_of_fieldsEqual h
    rw [fieldsEqual_of_names ha.nodup same] at h
    exact Bool.and_eq_true_iff.2 ⟨beq_iff_eq.2 (by simpa using congrArg List.length same), h⟩
  · intro h
    rw [fieldsEqual_of_names ha.nodup (names_of_fieldsMatch ha hb h)]
    exact (Bool.and_eq_true_iff.1 h).2

theorem strictEquals_comm (v w : Value) : v.strictEquals w = w.strictEquals v := by
  have forth {v w : Value} (h : v.strictEquals w = true) : w.strictEquals v = true := by
    obtain ⟨same, number⟩ := (strictEquals_iff v w).1 h
    refine (strictEquals_iff w v).2 ⟨same.symm, ?_⟩
    rw [← hasNaN_mapNumbers unseen_mergeZeros, ← same, hasNaN_mapNumbers unseen_mergeZeros, number]
  exact Bool.eq_iff_iff.2 ⟨forth, forth⟩

theorem strictEquals_trans {u v w : Value} (h : u.strictEquals v = true)
    (k : v.strictEquals w = true) : u.strictEquals w = true := by
  obtain ⟨same, number⟩ := (strictEquals_iff u v).1 h
  exact (strictEquals_iff u w).2 ⟨same.trans ((strictEquals_iff v w).1 k).1, number⟩

theorem strictEquals_self (v : Value) : v.strictEquals v = true ↔ v.hasNaN = false :=
  (strictEquals_iff v v).trans (and_iff_right rfl)

theorem looseEquals_comm (v w : Value) : v.looseEquals w = w.looseEquals v := by
  have numbers := Number.beq_comm v.toNumber w.toNumber
  have strict := strictEquals_comm v w
  unfold looseEquals
  rw [Bool.or_comm, Bool.and_comm]
  split
  · rfl
  · cases v <;> cases w <;> first | exact strict | exact numbers

theorem looseEquals_of_strictEquals {v w : Value} (h : v.strictEquals w = true) :
    v.looseEquals w = true := by
  cases v <;> cases w
  case bool.bool a b =>
    obtain rfl := beq_iff_eq.1 h
    cases a <;> decide
  case undefined.undefined | null.null => rfl
  case number.number | string.string | array.array | object.object => exact h
  all_goals cases h

theorem typeName_mapNumbers (f : Float → Float) (v : Value) :
    (v.mapNumbers f).typeName = v.typeName := by
  cases v <;> rfl

/-- What is the same for a value and the one with merged zeros is the same for strictly equal
values. -/
theorem shown_of_strictEquals {α : Type} {seen : Value → α}
    (merged : ∀ v, seen (v.mapNumbers mergeZeros) = seen v) {v w : Value}
    (h : v.strictEquals w = true) : seen v = seen w := by
  rw [← merged v, ((strictEquals_iff v w).1 h).1, merged w]

/-- Strict equality is symmetric and transitive, and it is reflexive on the values without a
number that is not a number. Loose equality is symmetric and holds of strictly equal values,
which have the same type, truth and text. Objects, with their names in order, are strictly
equal if they have as many fields and each one has an equal one of its name. -/
theorem equality_laws :
    (∀ v w : Value, v.strictEquals w = w.strictEquals v) ∧
    (∀ u v w : Value, u.strictEquals v = true → v.strictEquals w = true →
      u.strictEquals w = true) ∧
    (∀ v : Value, v.strictEquals v = true ↔ v.hasNaN = false) ∧
    (∀ v w : Value, v.looseEquals w = w.looseEquals v) ∧
    (∀ v w : Value, v.strictEquals w = true → v.looseEquals w = true ∧
      v.typeName = w.typeName ∧ v.truthy = w.truthy ∧ v.display = w.display) ∧
    ∀ a b : Keyed Value, a.Ascending → b.Ascending →
      (object a).strictEquals (object b) = fieldsMatch a b := by
  refine ⟨strictEquals_comm, fun _ _ _ => strictEquals_trans, strictEquals_self,
    looseEquals_comm, fun v w h => ⟨looseEquals_of_strictEquals h, ?_, ?_, ?_⟩,
    fun _ _ => fieldsEqual_eq_fieldsMatch⟩
  · exact shown_of_strictEquals (typeName_mapNumbers mergeZeros) h
  · exact shown_of_strictEquals (truthy_mapNumbers unseen_mergeZeros) h
  · exact shown_of_strictEquals (display_mapNumbers unseen_mergeZeros) h

example :
    let box (x : Float) := array [object [("k", number x)]]
    (box 0.0).strictEquals (box (-0.0)) = true ∧
      (box Number.nan).strictEquals (box Number.nan) = false := by
  decide

end ScoreSheet.Rule.Value
