import ScoreSheet.Proofs.Number.Order
import ScoreSheet.Rule.Operation
set_option autoImplicit false

namespace ScoreSheet.Rule

section Ids
variable {views : List View} {ids ids' : List String} {arguments arguments' : List Value}

theorem mem_idsOf {id : String} : id ∈ idsOf arguments ↔ .string id ∈ arguments := by
  unfold idsOf
  rw [List.mem_filterMap]
  constructor
  · rintro ⟨v, hv, named⟩
    cases v <;> cases named
    exact hv
  · exact fun h => ⟨_, h, rfl⟩

theorem mem_selected {v : View} : v ∈ selected views ids ↔ v ∈ views ∧ v.id ∈ ids := by
  unfold selected
  rw [List.mem_filter, List.contains_iff_mem]

theorem selected_congr (h : ∀ id, id ∈ ids ↔ id ∈ ids') (views : List View) :
    selected views ids = selected views ids' := by
  unfold selected
  refine List.filter_congr fun v _ => ?_
  rw [Bool.eq_iff_iff, List.contains_iff_mem, List.contains_iff_mem, h v.id]

/-- The functions of ids read nothing of their arguments but which ids there are. -/
theorem apply_congr_ids (h : ∀ id, .string id ∈ arguments ↔ .string id ∈ arguments')
    {a : Aggregate} (ha : a ∈ [Aggregate.countChecked, .allAreChecked, .sum]) (views : List View) :
    a.apply views arguments = a.apply views arguments' := by
  have same : selected views (idsOf arguments) = selected views (idsOf arguments') :=
    selected_congr (fun id => mem_idsOf.trans ((h id).trans mem_idsOf.symm)) views
  simp only [List.mem_cons, List.not_mem_nil, or_false] at ha
  rcases ha with rfl | rfl | rfl
  · simp only [Aggregate.apply, countChecked, same]
  · simp only [Aggregate.apply, allAreChecked, countChecked, same]
  · simp only [Aggregate.apply, sum, same]

end Ids

structure Tally where
  id : String
  isCheckbox : Bool
  isChecked : Bool
  summand? : Option Float

def tally (v : View) : Tally := ⟨v.id, isCheckbox v, isChecked v, summand? v⟩

section Views
variable {views views' : List View}

theorem selected_tally (views : List View) (ids : List String) :
    (selected views ids).map tally = (views.map tally).filter (ids.contains ·.id) := by
  rw [List.filter_map]
  rfl

theorem countP_selected (h : views.map tally = views'.map tally) (p : Tally → Bool)
    (ids : List String) :
    (selected views ids).countP (p ∘ tally) = (selected views' ids).countP (p ∘ tally) := by
  rw [← List.countP_map, ← List.countP_map, selected_tally, selected_tally, h]

theorem countChecked_congr (h : views.map tally = views'.map tally) (ids : List String) :
    countChecked views ids = countChecked views' ids :=
  countP_selected h Tally.isChecked ids

theorem allAreChecked_congr (h : views.map tally = views'.map tally) (ids : List String) :
    allAreChecked views ids = allAreChecked views' ids := by
  have boxes : (selected views ids).countP isCheckbox = (selected views' ids).countP isCheckbox :=
    countP_selected h Tally.isCheckbox ids
  rw [allAreChecked, allAreChecked, countChecked_congr h, boxes]

theorem sum_congr (h : views.map tally = views'.map tally) (ids : List String) :
    sum views ids = sum views' ids := by
  have summands : (selected views ids).filterMap (Tally.summand? ∘ tally) =
      (selected views' ids).filterMap (Tally.summand? ∘ tally) := by
    rw [← List.filterMap_map, ← List.filterMap_map, selected_tally, selected_tally, h]
  exact congrArg (List.foldl (· + ·) (-0.0)) summands

theorem compareCount_congr (h : views.map tally = views'.map tally)
    (test : Float → Float → Bool) (a : Aggregate) (arguments : List Value) :
    compareCount test a views arguments = compareCount test a views' arguments := by
  cases arguments with
  | nil => rfl
  | cons n rest => rw [compareCount, compareCount, countChecked_congr h]

/-- The functions over many elements read nothing of a view but what it counts as. -/
theorem apply_congr (h : views.map tally = views'.map tally) (a : Aggregate)
    (arguments : List Value) : a.apply views arguments = a.apply views' arguments := by
  cases a with
  | countChecked => rw [Aggregate.apply, Aggregate.apply, countChecked_congr h]
  | allAreChecked => rw [Aggregate.apply, Aggregate.apply, allAreChecked_congr h]
  | sum => rw [Aggregate.apply, Aggregate.apply, sum_congr h]
  | nAreChecked => exact compareCount_congr h (· == ·) .nAreChecked arguments
  | nOrMoreAreChecked =>
    exact compareCount_congr h (fun x y => decide (y ≤ x)) .nOrMoreAreChecked arguments
  | nOrLessAreChecked =>
    exact compareCount_congr h (fun x y => decide (x ≤ y)) .nOrLessAreChecked arguments

end Views

theorem beq_checked {value : Option Datum} :
    (value == some (.bool true)) = true ↔ value = some (.bool true) := by
  constructor
  · intro checked
    rcases value with _ | ⟨b⟩ | _ | _
    case some.bool => rw [eq_of_beq (α := Bool) checked]
    all_goals cases checked
  · rintro rfl
    rfl

section Counts
variable {views : List View} {ids : List String} {arguments : List Value}

def countBoxes (views : List View) (ids : List String) : Nat :=
  (selected views ids).countP isCheckbox

theorem countChecked_le (views : List View) (ids : List String) :
    countChecked views ids ≤ countBoxes views ids :=
  List.countP_mono_left fun _ _ checked => (Bool.and_eq_true_iff.1 checked).1

theorem allAreChecked_iff_count :
    allAreChecked views ids = true ↔ countChecked views ids = countBoxes views ids :=
  beq_iff_eq

theorem allAreChecked_iff : allAreChecked views ids = true ↔
    ∀ v ∈ views, v.id ∈ ids → v.kind = .checkbox → v.value = some (.bool true) := by
  have checked : countChecked views ids =
      ((selected views ids).filter isCheckbox).countP (·.value == some (.bool true)) := by
    rw [List.countP_filter]
    exact congrArg (List.countP · _) (funext fun v => Bool.and_comm _ _)
  rw [allAreChecked_iff_count, checked, countBoxes,
    List.countP_eq_length_filter (p := isCheckbox),
    List.countP_eq_length]
  simp only [List.mem_filter, mem_selected, isCheckbox, beq_iff_eq, beq_checked, and_imp]

/-- A count is the given number if it is both at least and at most that. -/
theorem nAreChecked_iff (n : Value) :
    Aggregate.nAreChecked.apply views (n :: arguments) = .ok (.bool true) ↔
      Aggregate.nOrMoreAreChecked.apply views (n :: arguments) = .ok (.bool true) ∧
        Aggregate.nOrLessAreChecked.apply views (n :: arguments) = .ok (.bool true) := by
  simp only [Aggregate.apply, compareCount, Except.ok.injEq, Value.bool.injEq, decide_eq_true_eq,
    Number.beq_iff_le, and_comm]

theorem nAreChecked_iff_beq (n : Value) :
    Aggregate.nAreChecked.apply views (n :: arguments) = .ok (.bool true) ↔
      (Float.ofNat (countChecked views (idsOf arguments)) == n.toNumber) = true := by
  simp only [Aggregate.apply, compareCount, Except.ok.injEq, Value.bool.injEq]

/-- If all boxes are checked, as many are as there are. -/
theorem nAreChecked_of_allAreChecked (all : allAreChecked views (idsOf arguments) = true) :
    Aggregate.nAreChecked.apply views
        (.number (Float.ofNat (countBoxes views (idsOf arguments))) :: arguments) =
      .ok (.bool true) := by
  rw [nAreChecked_iff_beq, allAreChecked_iff_count.1 all]
  exact Number.beq_iff.2 ⟨rfl, Number.isNaN_ofNat _⟩

/-- If as many boxes are checked as there are, and their number has a float of its own, then all
are. -/
theorem allAreChecked_of_nAreChecked (small : countBoxes views (idsOf arguments) < 2 ^ 53)
    (many : Aggregate.nAreChecked.apply views
        (.number (Float.ofNat (countBoxes views (idsOf arguments))) :: arguments) =
      .ok (.bool true)) : allAreChecked views (idsOf arguments) = true := by
  have fewer := countChecked_le views (idsOf arguments)
  rw [nAreChecked_iff_beq] at many
  exact allAreChecked_iff_count.2
    ((Number.ofNat_beq_iff (Nat.lt_of_le_of_lt fewer small) small).1 many)

end Counts

/-- The functions of ids depend on the set of ids only. The one that asks for a count is the
other two that bound it taken together, and the one that asks for all boxes looks at every box
that is named, or counts them. Counts are compared as floats, which tell all of them apart below
`2 ^ 53`, far more boxes than a list in memory holds. -/
theorem aggregates_of_ids (views : List View) :
    (∀ arguments arguments' : List Value,
      (∀ id, .string id ∈ arguments ↔ .string id ∈ arguments') →
        ∀ a ∈ [Aggregate.countChecked, .allAreChecked, .sum],
          a.apply views arguments = a.apply views arguments') ∧
    ∀ arguments : List Value,
      (∀ n : Value, Aggregate.nAreChecked.apply views (n :: arguments) = .ok (.bool true) ↔
        Aggregate.nOrMoreAreChecked.apply views (n :: arguments) = .ok (.bool true) ∧
          Aggregate.nOrLessAreChecked.apply views (n :: arguments) = .ok (.bool true)) ∧
      (Aggregate.allAreChecked.apply views arguments = .ok (.bool true) ↔
        ∀ v ∈ views, .string v.id ∈ arguments → v.kind = .checkbox →
          v.value = some (.bool true)) ∧
      let boxes := countBoxes views (idsOf arguments)
      let asMany := Aggregate.nAreChecked.apply views (.number (Float.ofNat boxes) :: arguments)
      (Aggregate.allAreChecked.apply views arguments = .ok (.bool true) →
        asMany = .ok (.bool true)) ∧
      (boxes < 2 ^ 53 → asMany = .ok (.bool true) →
        Aggregate.allAreChecked.apply views arguments = .ok (.bool true)) := by
  have all (arguments : List Value) :
      Aggregate.allAreChecked.apply views arguments = .ok (.bool true) ↔
        allAreChecked views (idsOf arguments) = true := by
    rw [Aggregate.apply, Except.ok.injEq, Value.bool.injEq]
  refine ⟨fun _ _ h _ ha => apply_congr_ids h ha views,
    fun arguments => ⟨nAreChecked_iff, ?_, fun h => ?_, fun small many => ?_⟩⟩
  · rw [all, allAreChecked_iff]
    simp only [mem_idsOf]
  · exact nAreChecked_of_allAreChecked ((all arguments).1 h)
  · exact (all arguments).2 (allAreChecked_of_nAreChecked small many)

end ScoreSheet.Rule
