import ScoreSheet.Proofs.Evaluation.CallDepth
set_option autoImplicit false

/-! A condition is evaluated like a rule, only that its writes are refused. A refused write ends
the evaluation, whatever function, argument or operand it stands in, so a condition that has a
value has written nothing, and a rule that does not write cannot tell that it is none. -/
namespace ScoreSheet.Rule

variable {σ : Type}

/-- What a condition does without a fault, a rule does without touching its state. -/
theorem refuse_follows (env : Environment) (sink : Sink σ) (limit : Nat) (e : Expr) (s : σ) :
    Follows (fun _ => True) (fun (_ : Unit) t => t = s) (evaluateTop env refuse limit e)
      (evaluateTop env sink limit e) := by
  have sinks : SinksSimulate (.excusing (fun _ => True) fun (_ : Unit) t => t = s) id refuse
      sink := fun element p q _ _ => .excuse trivial (sink element q)
  exact simulates_excusing.1
    (evaluateTop_simulates unseen_id ⟨rfl, rfl⟩ sinks limit e).of_mapNumbers_id

/-- Whether one of the calls is a write, if only an attempt. -/
def Writes (calls : List CallRecord) : Prop := ∃ call ∈ calls, call.name = "updateState"

theorem writes_accounted (limit : Nat) :
    Accounted limit (fun d (c : Counted σ) (_ : Unit) => c.depth = d) Writes where
  depth h := h
  enter _ h := congrArg (· + 1) h
  leave h := congrArg (· - 1) h
  note h _ := h
  grows := fun ⟨call, hc, write⟩ _ => ⟨call, List.mem_append_left _ hc, write⟩

/-- A sink does not know which functions are running. -/
theorem updateCall_depth (env : Environment) (sink : Sink σ) (arguments : List Value)
    (c : Counted σ) :
    (stateLeft (updateCall env (counting sink) arguments c)).depth = c.depth := by
  -- The invariant is all that this coupling is about: it relates no states.
  let C : Coupling Fault (Counted σ) (Counted σ) :=
    ⟨fun _ _ => False, fun _ => False, fun c' => c'.depth = c.depth⟩
  have sinks : SinksSimulate C id (counting sink) (counting sink) := fun element p q _ _ =>
    ⟨fun c' hc => by rwa [counting, stateLeft_mapState], fun _ _ => False.elim⟩
  have same : Simulates C (Value.mapNumbers id) (updateCall env (counting sink) arguments)
      (updateCall env (counting sink) arguments) :=
    updateCall_simulates unseen_id ⟨rfl, rfl⟩ sinks rfl
  exact same.stays c rfl

theorem noted_update_writes (env : Environment) (sink : Sink σ) (arguments : List Value)
    (c : Counted σ) :
    let left := stateLeft (noted "updateState" (updateCall env (counting sink) arguments) c)
    left.depth = c.depth ∧ Writes left.calls := by
  simp only [noted, stateLeft_mapState, Counted.note]
  exact ⟨updateCall_depth env sink arguments c, _, List.mem_append_right _ (.head _), rfl⟩

/-- Until it calls the writing function, a rule does what a condition does. -/
theorem counted_simulates_refuse (env : Environment) (sink : Sink σ) (limit : Nat)
    (beyond : Call (Counted σ)) {n : Nat} (enough : limit < n) (e : Expr) :
    Simulates (accounted (fun d (c : Counted σ) (_ : Unit) => c.depth = d) Writes 0) id
      (evaluateCounted env sink limit beyond n e) (evaluateTop env refuse limit e) := by
  refine (writes_accounted limit).evaluated beyond (fun d arguments => ⟨?_, ?_⟩) enough e
  · rintro c ⟨rfl, -⟩
    exact noted_update_writes env sink arguments c
  · rintro c t rfl
    have escaped := noted_update_writes env sink arguments c
    cases hs : noted "updateState" (updateCall env (counting sink) arguments) c with
    | ok v c' =>
      rw [hs] at escaped
      exact .inl escaped
    | error f c' =>
      rw [hs] at escaped
      exact .inr (.inl escaped)

/-- The calls that an evaluation makes, in the order in which they end. -/
def callsMade (env : Environment) (sink : Sink σ) (limit : Nat) (e : Expr) (s : σ) :
    List CallRecord :=
  (stateLeft (evaluateCounted env sink limit (fun name _ => throw (.undefinedName name))
    (limit + 1) e (.start s))).calls

theorem evaluateTop_refuse_of_callsMade {env : Environment} {sink : Sink σ} {limit : Nat}
    {e : Expr} {s : σ}
    (h : ∀ call ∈ callsMade env sink limit e s, call.name ≠ "updateState") :
    evaluateTop env refuse limit e () =
      mapState (fun _ => ()) (evaluateTop env sink limit e s) := by
  let beyond : Call (Counted σ) := fun name _ => throw (.undefinedName name)
  obtain ⟨same, -⟩ := evaluateCounted_tracked env sink beyond (Nat.lt_succ_self limit) e s
  have run := (counted_simulates_refuse env sink limit beyond (Nat.lt_succ_self limit) e).ends
    (.start s) () rfl
  unfold callsMade at h
  rw [← same]
  cases hc : evaluateCounted env sink limit beyond (limit + 1) e (.start s) with
  | ok v c =>
    rw [hc] at h run
    obtain ⟨_, _, ht, rfl, -⟩ := run.resolve_left fun ⟨_, call, hm, write⟩ => h call hm write
    exact ht
  | error f c =>
    rw [hc] at h run
    obtain ⟨_, ht, -⟩ := (run.resolve_left id).resolve_left
      fun ⟨_, call, hm, write⟩ => h call hm write
    exact ht

/-- If an expression has a value as a condition, it has that value as a rule and leaves the
state behind its writes as it is, the store for one. If it calls the writing function nowhere
as a rule, it ends as a condition as it does as a rule. -/
theorem condition_agrees (env : Environment) (limit : Nat) (e : Expr) (sink : Sink σ) (s : σ) :
    (∀ v, evaluateTop env refuse limit e () = .ok v () → evaluateTop env sink limit e s = .ok v s) ∧
    ((∀ call ∈ callsMade env sink limit e s, call.name ≠ "updateState") →
      evaluateTop env refuse limit e () =
        mapState (fun _ => ()) (evaluateTop env sink limit e s)) := by
  refine ⟨fun v h => ?_, evaluateTop_refuse_of_callsMade⟩
  have run := refuse_follows env sink limit e s () s rfl
  rw [h] at run
  obtain ⟨_, ht, rfl⟩ := run
  exact ht

def asking : Environment where
  views := [⟨"a", .checkbox, some (.bool true), false⟩]
  functions := [("ready", ⟨"ready", ⟨["check"], none⟩,
    [.branch (.name "check")
      [.expr (.call "updateState" [.one (.literal (.string "a")),
        .one (.object [("value", .literal (.bool true))])])] none,
     .return (some (.call "allAreChecked" [.one (.literal (.string "a"))]))]⟩)]

theorem condition_agrees_asking :
    let ready (check : Bool) : Expr := .call "ready" [.one (.literal (.bool check))]
    let stuck : Expr := .logical .and (ready false) (.name "missing")
    evaluateTop asking refuse 64 (ready false) () = .ok (.bool true) () ∧
      evaluateTop asking storeSink 64 (ready false) (.empty, false) =
        .ok (.bool true) (.empty, false) ∧
      (callsMade asking storeSink 64 stuck (.empty, false)).map CallRecord.name =
        ["allAreChecked", "ready"] ∧
      evaluateTop asking refuse 64 stuck () = .error (.undefinedName "missing") () ∧
      evaluateTop asking refuse 64 (ready true) () = .error .readOnly () := by
  intro ready stuck
  refine ⟨rfl, (condition_agrees asking 64 (ready false) storeSink (.empty, false)).1 _ rfl, rfl,
    ?_, rfl⟩
  exact (condition_agrees asking 64 stuck storeSink (.empty, false)).2 (by decide)

end ScoreSheet.Rule
