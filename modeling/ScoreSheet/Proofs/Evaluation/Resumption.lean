import ScoreSheet.Proofs.Evaluation.FixedPoint
set_option autoImplicit false

/-! A run that settles does not depend on the reruns that it has left. A run that is exhausted
can be resumed: another run from the store that it left takes the passes that it would have
taken with more reruns. -/
namespace ScoreSheet.Program

open Rule

variable {p : Program} {elements : List Element} {limit reruns : Nat} {rounds : Rounds}
  {store store' : Store}

/-- The passes stay within the budget, and an exhausted run has taken all of them. -/
theorem Repeats.passes_le (h : p.Repeats elements limit reruns store rounds store') :
    1 ≤ rounds.passes ∧ rounds.passes ≤ 1 + reruns ∧
      (rounds.exhausted = true → rounds.passes = reruns + 1) := by
  induction h with
  | quiet => exact ⟨Nat.le_refl 1, Nat.le_add_right 1 _, fun stop => nomatch stop⟩
  | stopped => exact ⟨Nat.le_refl 1, Nat.le_refl 1, fun _ => rfl⟩
  | again _ _ ih =>
    obtain ⟨least, most, all⟩ := ih
    exact ⟨Nat.le_add_left 1 _, by dsimp only; omega, fun stop => congrArg (· + 1) (all stop)⟩

/-- Some pass changed the store exactly if the first one did. -/
theorem Repeats.first_pass (h : p.Repeats elements limit reruns store rounds store') :
    ∃ s, p.pass elements limit store = .ok rounds.changed s := by
  cases h with
  | quiet hp | stopped hp | again hp => exact ⟨_, hp⟩

theorem Repeats.of_settled (h : p.Repeats elements limit reruns store rounds store')
    (settled : rounds.exhausted = false) {more : Nat} (enough : reruns ≤ more) :
    p.Repeats elements limit more store rounds store' := by
  induction h generalizing more with
  | quiet hp => exact .quiet hp
  | stopped => cases settled
  | again hp _ ih =>
    obtain ⟨more, rfl⟩ := Nat.exists_eq_succ_of_ne_zero (Nat.ne_zero_of_lt enough)
    exact .again hp (ih settled (Nat.le_of_succ_le_succ enough))

/-- An exhausted run and one from where it stopped are one run with the reruns of both and
the one that is the first pass of the second. -/
theorem Repeats.resume {first : Nat} (h : p.Repeats elements limit first store rounds store')
    (stop : rounds.exhausted = true) (second : Nat) :
    p.settle elements limit (first + second + 1) store =
      match p.settle elements limit second store' with
      | .ok later s => .ok ⟨true, rounds.passes + later.passes, later.exhausted⟩ s
      | .error e s => .error e s := by
  induction h with
  | quiet => cases stop
  | @stopped s t hp =>
    rw [Nat.zero_add, settle_of_change hp]
    cases p.settle elements limit second t with
    | error e u => rfl
    | ok later u =>
      exact congrArg (fun n => EStateM.Result.ok (Rounds.mk true n later.exhausted) u)
        (Nat.add_comm later.passes 1)
  | @again left s u t earlier hp _ ih =>
    rw [settle_of_change hp, Nat.succ_add left second, ih stop]
    cases p.settle elements limit second t with
    | error e v => rfl
    | ok later v =>
      exact congrArg (fun n => EStateM.Result.ok (Rounds.mk true n later.exhausted) v)
        (Nat.succ_add earlier.passes later.passes).symm

theorem repeats_of_run {limits : Limits} {report : Report}
    (h : p.run elements limits store = .ok report store') :
    p.Repeats elements limits.callDepth limits.reruns store
        ⟨report.changed, report.passes, report.exhausted⟩ store' ∧
      report.warnings =
        if report.exhausted then [Warning.unsettled p.name report.passes] else [] := by
  rw [run_eq] at h
  split at h
  · rename_i hs
    cases h
    exact ⟨settle_eq_ok.1 hs, rfl⟩
  · cases h

/-- The budget bounds the passes of a run. A larger one does not matter to a run that
settles, and lets an exhausted one go on as a second run goes on from its store. -/
theorem run_budget (p : Program) (elements : List Element) (limit : Nat) (store : Store) :
    (∀ reruns report s, p.run elements ⟨reruns, limit⟩ store = .ok report s →
      1 ≤ report.passes ∧ report.passes ≤ 1 + reruns ∧
        (∃ t, p.pass elements limit store = .ok report.changed t) ∧
        report.warnings.map Warning.code = if report.exhausted then ["W-RECURSION"] else []) ∧
    (∀ reruns report s, p.run elements ⟨reruns, limit⟩ store = .ok report s →
      report.exhausted = false → ∀ more, reruns ≤ more →
        p.run elements ⟨more, limit⟩ store = .ok report s) ∧
    ∀ first report s, p.run elements ⟨first, limit⟩ store = .ok report s →
      report.exhausted = true → ∀ second,
        match p.run elements ⟨second, limit⟩ s with
        | .ok next t => ∃ whole, p.run elements ⟨first + second + 1, limit⟩ store = .ok whole t ∧
            whole.exhausted = next.exhausted ∧ whole.passes = first + 1 + next.passes
        | .error e t => p.run elements ⟨first + second + 1, limit⟩ store = .error e t := by
  refine ⟨fun reruns report s h => ?_, fun reruns report s h settled more enough => ?_,
    fun first report s h stop second => ?_⟩
  · obtain ⟨hs, warnings⟩ := repeats_of_run h
    obtain ⟨least, most, -⟩ := hs.passes_le
    refine ⟨least, most, hs.first_pass, ?_⟩
    rw [warnings]
    cases report.exhausted <;> rfl
  · obtain ⟨hs, -⟩ := repeats_of_run h
    rw [← h, run_eq, run_eq]
    simp only [settle_eq_ok.2 hs, settle_eq_ok.2 (hs.of_settled settled enough)]
  · obtain ⟨hs, -⟩ := repeats_of_run h
    obtain ⟨-, -, all⟩ := hs.passes_le
    have whole := hs.resume stop second
    rw [all stop] at whole
    rw [run_eq, run_eq]
    simp only [whole]
    cases p.settle elements limit second s with
    | error e t => rfl
    | ok outcome t => exact ⟨_, rfl, rfl, rfl⟩

def blinking : Program :=
  ⟨"default", [], [("a", .object
    [("value", .unary .not (.call "allAreChecked" [.one (.literal (.string "a"))]))])]⟩

theorem run_budget_blinking :
    let checked : Store := ⟨[⟨"a", some (.bool true), none⟩]⟩
    let cleared : Store := ⟨[⟨"a", some (.bool false), none⟩]⟩
    blinking.run boxElements ⟨0, 64⟩ .empty =
        .ok ⟨true, 1, true, [.unsettled "default" 1]⟩ checked ∧
      blinking.run boxElements ⟨0, 64⟩ checked =
        .ok ⟨true, 1, true, [.unsettled "default" 1]⟩ cleared ∧
      (∃ whole, blinking.run boxElements ⟨1, 64⟩ .empty = .ok whole cleared ∧
        whole.exhausted = true ∧ whole.passes = 2) ∧
      boxes.run boxElements ⟨2, 64⟩ .empty = boxes.run boxElements .default .empty :=
  ⟨rfl, rfl, (run_budget blinking boxElements 64 .empty).2.2 0 _ _ rfl rfl 0,
    (run_budget boxes boxElements 64 .empty).2.1 2 _ _ rfl rfl 50 (by decide)⟩

end ScoreSheet.Program
