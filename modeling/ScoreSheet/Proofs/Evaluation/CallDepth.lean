import ScoreSheet.Proofs.Evaluation.Writes
set_option autoImplicit false

/-! The evaluator takes the limit of nested calls as the depth of its recursion. Here the running
functions are counted instead, and the calls recurse as they like: a counter goes up when the
body of a function begins and down when it has ended, and a call is refused once the counter
has reached the limit. The calls then never nest deeper than the limit and leave the counter
as they found it, and the count gives what the recursion gives. A larger limit matters only to
an evaluation that has met it. -/
namespace ScoreSheet.Rule

variable {σ τ : Type}

/-- A call that has ended, and how many custom functions ran before it and after it. -/
structure CallRecord where
  name : String
  before : Nat
  after : Nat
deriving DecidableEq

/-- The state of a sink with an account of the calls: how many custom functions are running,
how many there were at most, and the calls that have ended. -/
structure Counted (σ : Type) where
  state : σ
  depth : Nat
  peak : Nat
  calls : List CallRecord

namespace Counted

def start (s : σ) : Counted σ := ⟨s, 0, 0, []⟩

def enter (c : Counted σ) : Counted σ :=
  { c with depth := c.depth + 1, peak := max c.peak (c.depth + 1) }

def leave (c : Counted σ) : Counted σ := { c with depth := c.depth - 1 }

def note (name : String) (before : Nat) (c : Counted σ) : Counted σ :=
  { c with calls := c.calls ++ [⟨name, before, c.depth⟩] }

end Counted

def mapState {ε α : Type} (f : σ → τ) : EStateM.Result ε σ α → EStateM.Result ε τ α
  | .ok x s => .ok x (f s)
  | .error e s => .error e (f s)

def counting (sink : Sink σ) : Sink (Counted σ) := fun id patch c =>
  mapState (fun s => { c with state := s }) (sink id patch c.state)

def noted {α : Type} (name : String) (m : Run (Counted σ) α) : Run (Counted σ) α := fun c =>
  mapState (Counted.note name c.depth) (m c)

def running {α : Type} (m : Run (Counted σ) α) : Run (Counted σ) α := fun c =>
  mapState Counted.leave (m c.enter)

/-- Runs the body of a function, unless as many functions are running as may. -/
def enterCounted (env : Environment) (limit : Nat) (call : Call (Counted σ)) (f : Function)
    (arguments : List Value) : Run (Counted σ) Value := do
  if limit ≤ (← get).depth then throw (.callDepth limit f.name)
  else
    let flow ← running (executeAll env call (f.parameters.bind arguments) f.body)
    pure flow.value

/-- The recursion of the calls, unrolled a number of times. The count alone bounds it:
`beyond` is what the calls do that are nested deeper. -/
def unrolled (env : Environment) (sink : Sink σ) (limit : Nat) (beyond : Call (Counted σ)) :
    Nat → Call (Counted σ)
  | 0 => beyond
  | n + 1 => fun name arguments =>
    noted name (callNamed env (counting sink)
      (enterCounted env limit (unrolled env sink limit beyond n)) name arguments)

def evaluateCounted (env : Environment) (sink : Sink σ) (limit : Nat)
    (beyond : Call (Counted σ)) (n : Nat) (e : Expr) : Run (Counted σ) Value :=
  evaluate env (unrolled env sink limit beyond n) [] e

/-- A relation between counted states and others, at every depth of calls, and a property of
the calls that have ended, such that the account keeps both. -/
structure Accounted (limit : Nat) (R : Nat → Counted σ → τ → Prop)
    (E : List CallRecord → Prop) : Prop where
  depth : ∀ {d c t}, R d c t → c.depth = d
  enter : ∀ {d c t}, d < limit → R d c t → R (d + 1) c.enter t
  leave : ∀ {d c t}, R (d + 1) c t → R d c.leave t
  note : ∀ {d c t}, R d c t → ∀ name, R d (c.note name d) t
  grows : ∀ {calls}, E calls → ∀ call, E (calls ++ [call])

def accounted (R : Nat → Counted σ → τ → Prop) (E : List CallRecord → Prop) (d : Nat) :
    Coupling Fault (Counted σ) τ :=
  ⟨R d, fun _ => False, fun c => c.depth = d ∧ E c.calls⟩

theorem stateLeft_mapState {ε α : Type} (f : σ → τ) (r : EStateM.Result ε σ α) :
    stateLeft (mapState f r) = f (stateLeft r) := by
  cases r <;> rfl

theorem enterCounted_eq {env : Environment} {limit : Nat} {call : Call (Counted σ)} {f : Function}
    {arguments : List Value} (c : Counted σ) :
    enterCounted env limit call f arguments c =
      if limit ≤ c.depth then .error (.callDepth limit f.name) c
      else (do
        let flow ← running (executeAll env call (f.parameters.bind arguments) f.body)
        pure flow.value : Run (Counted σ) Value) c := by
  change (if limit ≤ c.depth then throw _ else _ : Run (Counted σ) Value) c = _
  split <;> rfl

namespace Accounted
variable {α γ : Type} {R : Nat → Counted σ → τ → Prop} {E : List CallRecord → Prop}
  {limit d : Nat} {g : α → γ} {m : Run (Counted σ) α} {n : Run τ α}

protected theorem noted (h : Accounted limit R E) (name : String)
    (hm : Simulates (accounted R E d) g m n) :
    Simulates (accounted R E d) g (noted name m) n where
  stays c hc := by
    unfold noted
    rw [stateLeft_mapState]
    exact (hm.stays c hc).imp_right (h.grows · _)
  ends c t hr := by
    have ended := hm.ends c t hr
    have depth : c.depth = d := h.depth hr
    unfold noted
    cases hs : m c with
    | ok x c' =>
      rw [hs] at ended
      refine ended.imp (And.imp_right (h.grows · _)) fun ⟨y, t', ht, same, hr'⟩ =>
        ⟨y, t', ht, same, ?_⟩
      exact depth ▸ h.note hr' name
    | error f c' =>
      rw [hs] at ended
      refine ended.imp_right fun ended =>
        ended.imp (And.imp_right (h.grows · _)) fun ⟨t', ht, hr'⟩ => ⟨t', ht, ?_⟩
      exact depth ▸ h.note hr' name

protected theorem running (h : Accounted limit R E) (below : d < limit)
    (hm : Simulates (accounted R E (d + 1)) g m n) :
    Simulates (accounted R E d) g (running m) n where
  stays c hc := by
    unfold running
    rw [stateLeft_mapState]
    obtain ⟨depth, calls⟩ := hm.stays c.enter (hc.imp_left (congrArg (· + 1)))
    exact ⟨congrArg (· - 1) depth, calls⟩
  ends c t hr := by
    have ended := hm.ends c.enter t (h.enter below hr)
    have left {c' : Counted σ} (escaped : (accounted R E (d + 1)).escaped c') :
        (accounted R E d).escaped c'.leave := escaped.imp_left (congrArg (· - 1))
    unfold running
    cases hs : m c.enter with
    | ok x c' =>
      rw [hs] at ended
      exact ended.imp left fun ⟨y, t', ht, same, hr'⟩ => ⟨y, t', ht, same, h.leave hr'⟩
    | error f c' =>
      rw [hs] at ended
      exact ended.imp_right fun ended =>
        ended.imp left fun ⟨t', ht, hr'⟩ => ⟨t', ht, h.leave hr'⟩

variable {env : Environment} {sink : Sink σ} {sink' : Sink τ} {call : Call (Counted σ)}
  {f : Function} {arguments : List Value}

/-- At the limit a function is refused. -/
theorem refused (h : Accounted limit R E) {g : Value → γ} :
    Simulates (accounted R E limit) g (enterCounted env limit call f arguments)
      (throw (.callDepth limit f.name)) where
  stays c hc := by
    rw [enterCounted_eq, if_pos (Nat.le_of_eq hc.1.symm)]
    exact hc
  ends c t hr := by
    rw [enterCounted_eq, if_pos (Nat.le_of_eq (h.depth hr).symm)]
    exact .inr (.inr ⟨t, rfl, hr⟩)

/-- Below the limit its body runs one call deeper. -/
theorem entered (h : Accounted limit R E) (below : d < limit) {g : Value → γ} {n : Run τ Flow}
    (body : Simulates (accounted R E (d + 1)) (fun flow => g flow.value)
      (executeAll env call (f.parameters.bind arguments) f.body) n) :
    Simulates (accounted R E d) g (enterCounted env limit call f arguments)
      (do let flow ← n; pure flow.value) := by
  have counted : Simulates (accounted R E d) g
      (do
        let flow ← running (executeAll env call (f.parameters.bind arguments) f.body)
        pure flow.value)
      (do let flow ← n; pure flow.value) :=
    .bind (h.running below body) fun _ _ same => .pure same
  constructor
  · intro c hc
    rw [enterCounted_eq, if_neg (Nat.not_le.2 (hc.1 ▸ below))]
    exact counted.stays c hc
  · intro c t hr
    rw [enterCounted_eq, if_neg (Nat.not_le.2 (h.depth hr ▸ below))]
    exact counted.ends c t hr

theorem called (h : Accounted limit R E)
    (updates : ∀ arguments, Simulates (accounted R E d) (Value.mapNumbers id)
      (noted "updateState" (updateCall env (counting sink) arguments))
      (updateCall env sink' arguments))
    {enter : Function → List Value → Run τ Value}
    (functions : ∀ f arguments, Simulates (accounted R E d) (Value.mapNumbers id)
      (enterCounted env limit call f arguments) (enter f arguments)) :
    CallsSimulate (accounted R E d) id
      (fun name arguments =>
        noted name (callNamed env (counting sink) (enterCounted env limit call) name arguments))
      (callNamed env sink' enter) := by
  refine callsSimulate_id fun name a => ?_
  by_cases update : name = "updateState"
  · subst update
    exact updates a
  · exact h.noted name (callNamed_simulates unseen_id ⟨rfl, rfl⟩ rfl (absurd · update)
      fun f => functions f a)

/-- Where the evaluator may nest `room` more calls, the counted calls do not get beyond a
recursion that is larger. Only updates depend on what the runs are compared for. -/
theorem unrolled (h : Accounted limit R E) (beyond : Call (Counted σ))
    (updates : ∀ d arguments, Simulates (accounted R E d) (Value.mapNumbers id)
      (noted "updateState" (updateCall env (counting sink) arguments))
      (updateCall env sink' arguments))
    {room n : Nat} (whole : d + room = limit) (enough : room < n) :
    CallsSimulate (accounted R E d) id (unrolled env sink limit beyond n)
      (invoke env sink' limit room) := by
  induction room generalizing d n with
  | zero =>
    obtain ⟨n, rfl⟩ := Nat.exists_eq_succ_of_ne_zero (Nat.ne_zero_of_lt enough)
    obtain rfl : d = limit := whole
    exact h.called (updates d) fun f arguments => h.refused
  | succ room ih =>
    obtain ⟨n, rfl⟩ := Nat.exists_eq_succ_of_ne_zero (Nat.ne_zero_of_lt enough)
    have deeper := ih (d := d + 1) (n := n) (by omega) (by omega)
    refine h.called (updates d) fun f arguments => h.entered (by omega) ?_
    exact (executeAll_simulates unseen_id ⟨rfl, rfl⟩ deeper rfl f.body).weaken fun _ _ =>
      mapNumbers_value_congr

/-- A whole evaluation, where the limit alone decides how deep the counted calls get. -/
theorem evaluated (h : Accounted limit R E) (beyond : Call (Counted σ))
    (updates : ∀ d arguments, Simulates (accounted R E d) (Value.mapNumbers id)
      (noted "updateState" (updateCall env (counting sink) arguments))
      (updateCall env sink' arguments))
    {n : Nat} (enough : limit < n) (e : Expr) :
    Simulates (accounted R E 0) id (evaluateCounted env sink limit beyond n e)
      (evaluateTop env sink' limit e) := by
  have calls := h.unrolled beyond updates (Nat.zero_add limit) enough
  exact (evaluate_simulates unseen_id ⟨rfl, rfl⟩ calls rfl e).of_mapNumbers_id

end Accounted

/-- What the account of an evaluation shows at a depth of calls: no more functions have run
than may, and every call has left as many running as it found. -/
structure Tracked (limit depth : Nat) (c : Counted σ) (s : σ) : Prop where
  state : c.state = s
  depth : c.depth = depth
  peak : c.peak ≤ limit
  balanced : ∀ call ∈ c.calls, call.after = call.before

variable {env : Environment} {sink : Sink σ} {limit : Nat}

theorem Tracked.start (s : σ) : Tracked limit 0 (.start s) s :=
  ⟨rfl, rfl, Nat.zero_le _, fun _ h => nomatch h⟩

theorem tracked_accounted : Accounted limit (Tracked (σ := σ) limit) fun _ => False where
  depth h := h.depth
  enter below h := ⟨h.state, congrArg (· + 1) h.depth,
    Nat.max_le.2 ⟨h.peak, Nat.succ_le_of_lt (h.depth ▸ below)⟩, h.balanced⟩
  leave h := ⟨h.state, congrArg (· - 1) h.depth, h.peak, h.balanced⟩
  note h name := ⟨h.state, h.depth, h.peak, fun call hc => by
    rcases List.mem_append.1 hc with hc | hc
    · exact h.balanced call hc
    · cases List.mem_singleton.1 hc
      exact h.depth⟩
  grows := False.elim

theorem counting_simulates (sink : Sink σ) (limit d : Nat) :
    SinksSimulate (accounted (Tracked limit) (fun _ => False) d) id (counting sink) sink := by
  refine sinksSimulate_id fun element p => ⟨fun c hc => hc.2.elim, fun c s h => ?_⟩
  obtain ⟨rfl, depth, peak, balanced⟩ := h
  unfold counting
  cases hs : sink element p c.state with
  | ok x s => exact .inr ⟨x, s, rfl, rfl, rfl, depth, peak, balanced⟩
  | error f s => exact .inr (.inr ⟨s, rfl, rfl, depth, peak, balanced⟩)

/-- The account says how an evaluation has gone and changes nothing in it. -/
theorem evaluateCounted_tracked (env : Environment) (sink : Sink σ) (beyond : Call (Counted σ))
    {n : Nat} (enough : limit < n) (e : Expr) (s : σ) :
    mapState Counted.state (evaluateCounted env sink limit beyond n e (.start s)) =
        evaluateTop env sink limit e s ∧
      Tracked limit 0 (stateLeft (evaluateCounted env sink limit beyond n e (.start s)))
        (stateLeft (evaluateTop env sink limit e s)) := by
  have updates (d : Nat) (arguments : List Value) :
      Simulates (accounted (Tracked limit) (fun _ => False) d) (Value.mapNumbers id)
        (noted "updateState" (updateCall env (counting sink) arguments))
        (updateCall env sink arguments) :=
    tracked_accounted.noted "updateState"
      (updateCall_simulates unseen_id ⟨rfl, rfl⟩ (counting_simulates sink limit d) rfl)
  have run := (tracked_accounted.evaluated beyond updates enough e).ends _ s (Tracked.start s)
  cases hc : evaluateCounted env sink limit beyond n e (.start s) with
  | ok v c =>
    rw [hc] at run
    obtain ⟨_, t, ht, rfl, tracked⟩ := run.resolve_left And.right
    rw [ht]
    exact ⟨congrArg _ tracked.state, tracked⟩
  | error f c =>
    rw [hc] at run
    obtain ⟨t, ht, tracked⟩ := (run.resolve_left id).resolve_left And.right
    rw [ht]
    exact ⟨congrArg _ tracked.state, tracked⟩

def Fault.IsCallDepth : Fault → Prop
  | callDepth _ _ => True
  | _ => False

theorem sinksSimulate_self (excused : Fault → Prop) :
    SinksSimulate (.excusing excused Eq) id sink sink := by
  refine sinksSimulate_id fun element p => simulates_excusing.2 fun s _ hs => ?_
  subst hs
  cases hr : sink element p s with
  | ok x s' => exact ⟨s', rfl, rfl⟩
  | error f s' => exact .inr ⟨s', rfl, rfl⟩

/-- With more room the calls do what they do with less, unless that is too little. -/
theorem invoke_simulates_more (env : Environment) (sink : Sink σ) (limit more : Nat)
    {room room' : Nat} (h : room ≤ room') :
    CallsSimulate (.excusing Fault.IsCallDepth Eq) id (invoke env sink limit room)
      (invoke env sink more room') := by
  have update (a : List Value) : Simulates (.excusing Fault.IsCallDepth Eq) (Value.mapNumbers id)
      (updateCall env sink a) (updateCall env sink a) :=
    updateCall_simulates unseen_id ⟨rfl, rfl⟩ (sinksSimulate_self _) rfl
  induction room generalizing room' with
  | zero =>
    refine callsSimulate_id fun name a => ?_
    cases room' <;>
      exact callNamed_simulates unseen_id ⟨rfl, rfl⟩ rfl (fun _ => update a) fun _ =>
        .excuse trivial _
  | succ room ih =>
    obtain ⟨room', rfl⟩ := Nat.exists_eq_succ_of_ne_zero (Nat.ne_zero_of_lt h)
    refine callsSimulate_id fun name a => ?_
    refine callNamed_simulates unseen_id ⟨rfl, rfl⟩ rfl (fun _ => update a) fun function => ?_
    have calls := ih (Nat.le_of_succ_le_succ h)
    exact .bind (executeAll_simulates unseen_id ⟨rfl, rfl⟩ calls rfl function.body)
      fun _ _ same => .pure (mapNumbers_value_congr same)

theorem evaluateTop_follows_more (env : Environment) (sink : Sink σ) {limit more : Nat}
    (enough : limit ≤ more) (e : Expr) :
    Follows Fault.IsCallDepth Eq (evaluateTop env sink limit e) (evaluateTop env sink more e) := by
  have calls := invoke_simulates_more env sink limit more enough
  exact simulates_excusing.1
    (evaluate_simulates unseen_id ⟨rfl, rfl⟩ calls rfl e).of_mapNumbers_id

/-- An evaluation always comes to an end, with every call as deep as it began and none deeper
than the limit: counted instead of bounded by the recursion, the calls never reach what lies
`beyond` it. If the evaluation does not stop for their depth, a larger limit gives the same
value or fault and the same state of the sink, be it a store or the list of the writes. -/
theorem evaluateTop_callDepth (env : Environment) (sink : Sink σ) (limit : Nat) (e : Expr)
    (s : σ) :
    (∀ beyond n, limit < n →
      mapState Counted.state (evaluateCounted env sink limit beyond n e (.start s)) =
        evaluateTop env sink limit e s ∧
      Tracked limit 0 (stateLeft (evaluateCounted env sink limit beyond n e (.start s)))
        (stateLeft (evaluateTop env sink limit e s))) ∧
    ((∀ f t, evaluateTop env sink limit e s = .error f t → ¬ f.IsCallDepth) →
      ∀ more, limit ≤ more → evaluateTop env sink more e s = evaluateTop env sink limit e s) := by
  refine ⟨fun beyond n enough => evaluateCounted_tracked env sink beyond enough e s,
    fun stops more enough => ?_⟩
  have run := evaluateTop_follows_more env sink enough e s s rfl
  cases hs : evaluateTop env sink limit e s with
  | ok v s' =>
    rw [hs] at run
    obtain ⟨_, ht, rfl⟩ := run
    exact ht
  | error f s' =>
    rw [hs] at run
    obtain ⟨_, ht, rfl⟩ := run.resolve_left (stops f s' hs)
    exact ht

def alternation : Environment where
  views := [⟨"a", .checkbox, none, false⟩]
  functions :=
    [("even", ⟨"even", ⟨["first"], some "rest"⟩,
      [.expr (.call "updateState" [.one (.literal (.string "a")),
        .one (.object [("value", .name "first")])]),
       .return (some (.conditional (.name "first") (.call "odd" [.spread (.name "rest")])
        (.literal (.bool true))))]⟩),
     ("odd", ⟨"odd", ⟨["first"], some "rest"⟩,
      [.return (some (.conditional (.name "first") (.call "even" [.spread (.name "rest")])
        (.literal (.bool false))))]⟩)]

theorem evaluateTop_callDepth_alternation :
    let twice : Expr := .call "even" [.one (.literal (.bool true)), .one (.literal (.bool true))]
    let start := ((Store.empty, false), ([] : List Write))
    let checked : Store := ⟨[⟨"a", some (.bool true), none⟩]⟩
    let account := stateLeft (evaluateCounted alternation (noting storeSink) 3
      (fun _ _ => throw .readOnly) 4 twice (.start start))
    evaluateTop alternation (noting storeSink) 3 twice start = .ok (.bool true)
        ((checked, true), [⟨"a", some (some (.bool true)), none⟩, ⟨"a", none, none⟩]) ∧
      evaluateTop alternation (noting storeSink) 64 twice start =
        evaluateTop alternation (noting storeSink) 3 twice start ∧
      Tracked 3 0 account
        (stateLeft (evaluateTop alternation (noting storeSink) 3 twice start)) ∧
      account.peak = 3 ∧
      account.calls.map CallRecord.name = ["updateState", "updateState", "even", "odd", "even"] ∧
      evaluateTop alternation (noting storeSink) 2 twice start = .error (.callDepth 2 "even")
        ((checked, true), [⟨"a", some (some (.bool true)), none⟩]) := by
  intro twice start checked account
  have run := evaluateTop_callDepth alternation (noting storeSink) 3 twice start
  refine ⟨rfl, run.2 ?_ 64 (by decide), (run.1 _ 4 (by decide)).2, rfl, rfl, rfl⟩
  rintro f t ⟨⟩

end ScoreSheet.Rule
