import ScoreSheet.Proofs.Evaluation.CallDepth
import ScoreSheet.Proofs.Rule.Forwarder
import ScoreSheet.Proofs.Validation.Compilation
set_option autoImplicit false

namespace ScoreSheet.Rule

theorem get?_compileFunctions {sources : Keyed FunctionSource} {functions : Keyed Function}
    (compiled : compileFunctions sources = .ok functions) (name : String) :
    (Keyed.get? sources name).map (compileFunction name) =
      (Keyed.get? functions name).map .ok := by
  induction sources generalizing functions with
  | nil =>
    cases compiled
    rfl
  | cons first sources ih =>
    obtain ⟨n, source⟩ := first
    rw [compileFunctions_cons] at compiled
    obtain ⟨f, head, compiled⟩ := bind_ok compiled
    obtain ⟨fs, tail, ⟨⟩⟩ := bind_ok compiled
    rw [Keyed.get?_cons, Keyed.get?_cons]
    by_cases same : name = n
    · subst same
      simp [head]
    · simp [same, ih tail]

/-- Whether a rule can call a function of this name: the one that writes, a custom or a
built-in one. -/
def Callable (functions : Keyed Function) (name : String) : Prop :=
  name = "updateState" ∨ (Keyed.get? functions name).isSome ∨ isBuiltin name

theorem isIdentifier_of_isBuiltin {name : String} (h : isBuiltin name) : isIdentifier name := by
  obtain ⟨a, found⟩ := Option.isSome_iff_exists.1 h
  obtain rfl : a.name = name :=
    beq_iff_eq.1 (List.find?_some (p := fun a : Aggregate => a.name == name) found)
  cases a <;> decide

theorem Callable.isIdentifier {sources : Keyed FunctionSource} {functions : Keyed Function}
    (compiled : compileFunctions sources = .ok functions) {name : String}
    (h : Callable functions name) : isIdentifier name := by
  rcases h with rfl | custom | builtin
  · decide
  · obtain ⟨f, found⟩ := Option.isSome_iff_exists.1 custom
    have declared := get?_compileFunctions compiled name
    rw [found] at declared
    obtain ⟨source, -, hf⟩ := Option.map_eq_some_iff.1 declared
    exact isIdentifier_of_compileFunction hf
  · exact isIdentifier_of_isBuiltin builtin

variable {σ : Type}

section Calls
variable {env : Environment} {sink : Sink σ} {name target rest : String}

/-- The one name of a forwarder stands for all arguments, and spreading it gives them back. -/
theorem evaluateItems_rest (call : Call σ) (rest : String) (values : List Value) :
    evaluateItems env call (Parameters.bind ⟨[], some rest⟩ values) [.spread (.name rest)] =
      pure values := by
  have bound : lookUp env (Parameters.bind ⟨[], some rest⟩ values) rest = .ok (.array values) := by
    simp [lookUp, Parameters.bind, Keyed.insert, Keyed.get?]
  simp [evaluateItems, evaluate, bound, lift, spreadItems]

theorem invoke_forwarding (usual : name ≠ "updateState")
    (found : env.functions.get? name = some (forwarding name target rest)) (limit room : Nat)
    (values : List Value) :
    invoke env sink limit (room + 1) name values = invoke env sink limit room target values := by
  rw [invoke, callNamed, if_neg usual, found]
  simp [forwarding, executeAll, execute, evaluate, evaluateItems_rest, Flow.value]

/-- With one more call allowed, a forwarder gives what its target gives, unless the calls of
that nest too deep. -/
theorem evaluateTop_follows_forwarding (usual : name ≠ "updateState")
    (found : env.functions.get? name = some (forwarding name target rest)) (limit : Nat)
    (arguments : List (Item Expr)) :
    Follows Fault.IsCallDepth Eq (evaluateTop env sink limit (.call target arguments))
      (evaluateTop env sink (limit + 1) (.call name arguments)) := by
  -- The arguments are evaluated outside of both functions and get the larger limit, too.
  have deeper := invoke_simulates_more env sink limit (limit + 1) (Nat.le_add_right limit 1)
  have called := invoke_simulates_more env sink limit (limit + 1) (Nat.le_refl limit)
  refine simulates_excusing.1 (Simulates.of_mapNumbers_id ?_)
  simp only [evaluateTop, evaluate]
  refine .bind (evaluateItems_simulates unseen_id ⟨rfl, rfl⟩ deeper rfl arguments)
    fun values values' same => ?_
  rw [invoke_forwarding usual found]
  exact called target values values' same

end Calls

/-- A custom function that takes `...rest` and returns `target(...rest)` gives for any arguments
what the target gives, be it a value or a fault, and leaves the sink in the same state: the
store, or the list of the writes. It takes one call more, so this is as long as the calls of the
target do not nest too deep. -/
theorem evaluateTop_forwarder {sources : Keyed FunctionSource} {functions : Keyed Function}
    (compiled : compileFunctions sources = .ok functions) {name target rest : String}
    (identifier : isIdentifier rest)
    (declared : Keyed.get? sources name = some (forwarder target rest))
    (callable : Callable functions target) (views : List View) (sink : Sink σ) (limit : Nat)
    (arguments : List (Item Expr)) (s : σ)
    (shallow : ∀ e t, evaluateTop ⟨views, functions⟩ sink limit (.call target arguments) s =
      .error e t → ¬ e.IsCallDepth) :
    evaluateTop ⟨views, functions⟩ sink (limit + 1) (.call name arguments) s =
      evaluateTop ⟨views, functions⟩ sink limit (.call target arguments) s := by
  have table := get?_compileFunctions compiled name
  rw [declared] at table
  obtain ⟨f, found, hf⟩ := Option.map_eq_some_iff.1 table.symm
  obtain ⟨⟨-, free⟩, -, -, rfl⟩ :=
    (compileFunction_forwarder (callable.isIdentifier compiled) identifier).1 hf.symm
  have usual : name ≠ "updateState" := by
    rintro rfl
    exact free (by decide)
  exact (evaluateTop_follows_forwarding usual found limit arguments).eq shallow

def marking : Function :=
  ⟨"mark", ⟨["id", "checked"], none⟩, [.expr (.call "updateState"
    [.one (.name "id"), .one (.object [("value", .name "checked")])])]⟩

def markingSource : FunctionSource :=
  ⟨"id, checked", "updateState(id, \x7b value: checked \x7d);"⟩

def isMarking : Except CompilationError Function → Bool
  | .ok ⟨"mark", ⟨["id", "checked"], none⟩, [.expr (.call "updateState"
      [.one (.name "id"), .one (.object [("value", .name "checked")])])]⟩ => true
  | _ => false

theorem compileFunction_marking : compileFunction "mark" markingSource = .ok marking := by
  have parsed : isMarking (compileFunction "mark" markingSource) = true := by decide +kernel
  generalize compileFunction "mark" markingSource = compiled at parsed ⊢
  unfold isMarking at parsed
  split at parsed
  · rfl
  · cases parsed

/-- Forwarders of a custom function and of a built-in one. A missing argument stays at its
place, and each forwarder needs one call more. -/
theorem evaluateTop_forwarder_mark :
    let sources := [("mark", markingSource), ("put", forwarder "mark" "all"),
      ("total", forwarder "countChecked" "ids")]
    let functions := [("mark", marking), ("put", forwarding "put" "mark" "all"),
      ("total", forwarding "total" "countChecked" "ids")]
    let env : Environment := ⟨[⟨"a", .checkbox, some (.bool true), false⟩], functions⟩
    let given : List (Item Expr) :=
      [.one (.literal (.string "a")), .one (.literal (.bool false)), .one (.literal .null)]
    let named : List (Item Expr) := [.one (.literal .undefined), .one (.literal (.string "a"))]
    let start := ((Store.empty, false), ([] : List Write))
    compileFunctions sources = .ok functions ∧
      evaluateTop env (noting storeSink) 2 (.call "put" given) start =
        evaluateTop env (noting storeSink) 1 (.call "mark" given) start ∧
      evaluateTop env (noting storeSink) 2 (.call "put" given) start = .ok .undefined
        ((⟨[⟨"a", some (.bool false), none⟩]⟩, true), [⟨"a", some (some (.bool false)), none⟩]) ∧
      evaluateTop env (noting storeSink) 1 (.call "total" named) start =
        evaluateTop env (noting storeSink) 0 (.call "countChecked" named) start ∧
      evaluateTop env (noting storeSink) 1 (.call "total" named) start =
        .ok (.number (Float.ofNat 1)) start := by
  intro sources functions env given named start
  have all : isIdentifier "all" := by decide
  have ids : isIdentifier "ids" := by decide
  have put := (compileFunction_forwarder (by decide : isIdentifier "mark") all).2
    ⟨⟨(by decide : isIdentifier "put"), by decide⟩, by decide, by decide, rfl⟩
  have total := (compileFunction_forwarder (by decide : isIdentifier "countChecked") ids).2
    ⟨⟨(by decide : isIdentifier "total"), by decide⟩, by decide, by decide, rfl⟩
  have compiled : compileFunctions sources = .ok functions := by
    rw [compileFunctions_cons, compileFunction_marking]
    rw [compileFunctions_cons, put]
    rw [compileFunctions_cons, total]
    rfl
  have puts : Keyed.get? sources "put" = some (forwarder "mark" "all") := rfl
  have totals : Keyed.get? sources "total" = some (forwarder "countChecked" "ids") := rfl
  have custom := evaluateTop_forwarder compiled all puts (.inr (.inl rfl)) env.views
    (noting storeSink) 1 given start (by rintro e t ⟨⟩)
  have builtin := evaluateTop_forwarder compiled ids totals (.inr (.inr (by decide))) env.views
    (noting storeSink) 0 named start (by rintro e t ⟨⟩)
  exact ⟨compiled, custom, custom.trans rfl, builtin, builtin.trans rfl⟩

end ScoreSheet.Rule
