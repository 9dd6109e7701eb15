import ScoreSheet.Proofs.Evaluation.Writes
set_option autoImplicit false

/-! A run that is not exhausted ends with a pass that reported no change. Such a pass left
the store as it was, and the next run begins with the same pass again. -/
namespace ScoreSheet

open Rule

namespace Program
variable {p : Program} {elements : List Element} {limit : Nat} {store store' : Store}

theorem settle_zero (store : Store) :
    p.settle elements limit 0 store =
      match p.pass elements limit store with
      | .ok changed s => .ok ⟨changed, 1, changed⟩ s
      | .error e s => .error e s := by
  change EStateM.bind (p.pass elements limit) _ store = _
  unfold EStateM.bind
  cases p.pass elements limit store <;> rfl

theorem settle_succ (reruns : Nat) (store : Store) :
    p.settle elements limit (reruns + 1) store =
      match p.pass elements limit store with
      | .ok false s => .ok ⟨false, 1, false⟩ s
      | .ok true s =>
        match p.settle elements limit reruns s with
        | .ok later s' => .ok ⟨true, later.passes + 1, later.exhausted⟩ s'
        | .error e s' => .error e s'
      | .error e s => .error e s := by
  change EStateM.bind (p.pass elements limit) _ store = _
  unfold EStateM.bind
  cases p.pass elements limit store with
  | error e s => rfl
  | ok changed s =>
    cases changed with
    | false => rfl
    | true =>
      change EStateM.bind (p.settle elements limit reruns) _ s = _
      unfold EStateM.bind
      cases hs : p.settle elements limit reruns s with
      | ok r t =>
        simp only [hs]
        rfl
      | error e t => simp only [hs]

theorem run_eq (limits : Limits) (store : Store) :
    p.run elements limits store =
      match p.settle elements limits.callDepth limits.reruns store with
      | .ok rounds s =>
        .ok ⟨rounds.changed, rounds.passes, rounds.exhausted,
          if rounds.exhausted then [Warning.unsettled p.name rounds.passes] else []⟩ s
      | .error e s => .error e s := by
  change EStateM.bind (p.settle elements limits.callDepth limits.reruns) _ store = _
  unfold EStateM.bind
  cases p.settle elements limits.callDepth limits.reruns store <;> rfl

theorem pass_ok {changed : Bool} (h : p.pass elements limit store = .ok changed store') :
    (p.trace (views elements store) limit).failure = none ∧
      changed = store.changedBy (p.trace (views elements store) limit).writes ∧
      store' = store.applyAll (p.trace (views elements store) limit).writes := by
  rw [pass_eq_replay, Trace.result] at h
  split at h
  · rename_i ended
    obtain ⟨rfl, rfl⟩ := EStateM.Result.ok.inj h
    exact ⟨ended, rfl, rfl⟩
  · cases h

theorem pass_unchanged (h : p.pass elements limit store = .ok false store') : store' = store := by
  obtain ⟨-, unchanged, left⟩ := pass_ok h
  rw [left, Store.applyAll_eq_self unchanged.symm]

theorem settle_of_pass (h : p.pass elements limit store = .ok false store') (reruns : Nat) :
    p.settle elements limit reruns store = .ok ⟨false, 1, false⟩ store' := by
  cases reruns with
  | zero => rw [settle_zero, h]
  | succ reruns => rw [settle_succ, h]

theorem settle_of_error {e : EvaluationError} (h : p.pass elements limit store = .error e store')
    (reruns : Nat) : p.settle elements limit reruns store = .error e store' := by
  cases reruns with
  | zero => rw [settle_zero, h]
  | succ reruns => rw [settle_succ, h]

theorem settle_of_change (h : p.pass elements limit store = .ok true store') (reruns : Nat) :
    p.settle elements limit (reruns + 1) store =
      match p.settle elements limit reruns store' with
      | .ok later s => .ok ⟨true, later.passes + 1, later.exhausted⟩ s
      | .error e s => .error e s := by
  rw [settle_succ, h]

/-- How repeated passes end well: with one that changes nothing, with the last one that is
allowed, or as they do from the store that the first one leaves. -/
inductive Repeats (p : Program) (elements : List Element) (limit : Nat) :
    Nat → Store → Rounds → Store → Prop
  | quiet {reruns : Nat} {s : Store} : p.pass elements limit s = .ok false s →
    Repeats p elements limit reruns s ⟨false, 1, false⟩ s
  | stopped {s t : Store} : p.pass elements limit s = .ok true t →
    Repeats p elements limit 0 s ⟨true, 1, true⟩ t
  | again {left : Nat} {s u t : Store} {later : Rounds} : p.pass elements limit s = .ok true u →
    Repeats p elements limit left u later t →
    Repeats p elements limit (left + 1) s ⟨true, later.passes + 1, later.exhausted⟩ t

theorem settle_eq_ok {reruns : Nat} {rounds : Rounds} :
    p.settle elements limit reruns store = .ok rounds store' ↔
      p.Repeats elements limit reruns store rounds store' := by
  constructor
  · intro h
    induction reruns generalizing store rounds with
    | zero =>
      rw [settle_zero] at h
      split at h
      · rename_i changed s hp
        cases h
        cases changed with
        | false =>
          obtain rfl := pass_unchanged hp
          exact .quiet hp
        | true => exact .stopped hp
      · cases h
    | succ reruns ih =>
      rw [settle_succ] at h
      split at h
      · rename_i s hp
        cases h
        obtain rfl := pass_unchanged hp
        exact .quiet hp
      · rename_i s hp
        split at h
        · rename_i hs
          cases h
          exact .again hp (ih hs)
        · cases h
      · cases h
  · intro h
    induction h with
    | quiet hp => exact settle_of_pass hp _
    | stopped hp => rw [settle_zero, hp]
    | again hp _ ih => rw [settle_of_change hp, ih]

/-- The last pass of a run that settled, taken again, finds nothing to change. -/
theorem Repeats.last_quiet {reruns : Nat} {rounds : Rounds}
    (h : p.Repeats elements limit reruns store rounds store')
    (settled : rounds.exhausted = false) : p.pass elements limit store' = .ok false store' := by
  induction h with
  | quiet hp => exact hp
  | stopped => cases settled
  | again _ _ ih => exact ih settled

/-- Running a program again where it has settled changes nothing. -/
theorem run_settled (p : Program) (elements : List Element) (limits : Limits)
    (store store' : Store) (report : Report)
    (h : p.run elements limits store = .ok report store') (settled : report.exhausted = false)
    (reruns : Nat) :
    p.run elements ⟨reruns, limits.callDepth⟩ store' = .ok ⟨false, 1, false, []⟩ store' := by
  rw [run_eq] at h
  split at h
  · rename_i rounds s hs
    cases h
    rw [run_eq, settle_of_pass ((settle_eq_ok.1 hs).last_quiet settled)]
    rfl
  · cases h

def boxes : Program where
  name := "default"
  functions := [("check", ⟨"check", ⟨["id"], none⟩,
    [.expr (.call "updateState"
      [.one (.name "id"), .one (.object [("value", .literal (.bool true))])])]⟩)]
  rules := [("a", .call "check" [.one (.literal (.string "b"))]),
    ("c", .object [("disabled", .call "allAreChecked" [.one (.literal (.string "b"))])])]

def boxElements : List Element :=
  ["a", "b", "c"].map fun id => ⟨id, .checkbox, ⟨0.0, 0.0⟩, ⟨0.0, 0.0⟩, none, []⟩

theorem run_settled_boxes :
    boxes.run boxElements .default .empty =
        .ok ⟨true, 3, false, []⟩ ⟨[⟨"b", some (.bool true), none⟩, ⟨"c", none, some true⟩]⟩ ∧
      boxes.run boxElements ⟨0, 64⟩ ⟨[⟨"b", some (.bool true), none⟩, ⟨"c", none, some true⟩]⟩ =
        .ok ⟨false, 1, false, []⟩
          ⟨[⟨"b", some (.bool true), none⟩, ⟨"c", none, some true⟩]⟩ :=
  ⟨rfl, run_settled boxes boxElements .default .empty _ ⟨true, 3, false, []⟩ rfl rfl 0⟩

end Program

end ScoreSheet
