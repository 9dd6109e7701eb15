import ScoreSheet.Evaluation.Passes
import ScoreSheet.Proofs.Result
import ScoreSheet.Proofs.Rule.UnseenOperation
import ScoreSheet.Proofs.State.Contents
import ScoreSheet.Proofs.State.Equality
set_option autoImplicit false

/-! The evaluator is the same for every sink, and it does not show an unseen change of
numbers. If two sinks keep a relation between their states, and two environments are equal
up to such a change, whole rules, functions and passes keep the relation: the second run
returns what the first one returns, up to the change, and stops with the fault it stops
with. A coupling may let the first run stop with certain faults, or run into states of no
return, and then asks nothing of the second one. -/
namespace ScoreSheet.Rule

section Runs
variable {ε σ τ α β γ δ : Type}

def stateLeft : EStateM.Result ε σ α → σ
  | .ok _ s | .error _ s => s

/-- How two runs are held together: which of their states belong together, and which ends of
the first run are no concern of the second one, by the fault or by the state left behind. -/
structure Coupling (ε σ τ : Type) where
  related : σ → τ → Prop
  excused : ε → Prop
  escaped : σ → Prop

/-- Related states, except that the first run may stop with certain faults. -/
def Coupling.excusing (excused : ε → Prop) (R : σ → τ → Prop) : Coupling ε σ τ :=
  ⟨R, excused, fun _ => False⟩

def Coupling.strict (R : σ → τ → Prop) : Coupling ε σ τ := .excusing (fun _ => False) R

/-- From related states the second run ends as the first one does, in related states and
with a result that is the same after `g`, unless the first one is excused or has escaped. -/
structure Simulates (C : Coupling ε σ τ) (g : α → γ) (m : EStateM ε σ α) (n : EStateM ε τ α) :
    Prop where
  stays : ∀ s, C.escaped s → C.escaped (stateLeft (m s))
  ends : ∀ s t, C.related s t →
    match m s with
    | .ok x s' => C.escaped s' ∨ ∃ y t', n t = .ok y t' ∧ g x = g y ∧ C.related s' t'
    | .error f s' => C.excused f ∨ C.escaped s' ∨ ∃ t', n t = .error f t' ∧ C.related s' t'

def Follows (excused : ε → Prop) (R : σ → τ → Prop) (m : EStateM ε σ α)
    (n : EStateM ε τ α) : Prop :=
  ∀ s t, R s t →
    match m s with
    | .ok x s' => ∃ t', n t = .ok x t' ∧ R s' t'
    | .error f s' => excused f ∨ ∃ t', n t = .error f t' ∧ R s' t'

variable {R : σ → τ → Prop} {C : Coupling ε σ τ} {g : α → γ} {g' : β → δ}

theorem simulates_strict {m : EStateM ε σ α} {n : EStateM ε τ α} :
    Simulates (.strict R) g m n ↔ ∀ s t, R s t →
      match m s with
      | .ok x s' => ∃ y t', n t = .ok y t' ∧ g x = g y ∧ R s' t'
      | .error f s' => ∃ t', n t = .error f t' ∧ R s' t' := by
  constructor
  · intro h s t hr
    have first := h.ends s t hr
    cases hs : m s with
    | ok x s' =>
      rw [hs] at first
      exact first.resolve_left id
    | error f s' =>
      rw [hs] at first
      exact (first.resolve_left id).resolve_left id
  · refine fun h => ⟨fun _ => False.elim, fun s t hr => ?_⟩
    have first := h s t hr
    cases hs : m s with
    | ok x s' =>
      rw [hs] at first
      exact .inr first
    | error f s' =>
      rw [hs] at first
      exact .inr (.inr first)

theorem simulates_excusing {excused : ε → Prop} {m : EStateM ε σ α} {n : EStateM ε τ α} :
    Simulates (.excusing excused R) id m n ↔ Follows excused R m n := by
  constructor
  · intro h s t hr
    have first := h.ends s t hr
    cases hs : m s with
    | ok x s' =>
      rw [hs] at first
      obtain ⟨_, t', ht, rfl, hr'⟩ := first.resolve_left id
      exact ⟨t', ht, hr'⟩
    | error f s' =>
      rw [hs] at first
      exact first.imp_right fun first => first.resolve_left id
  · refine fun h => ⟨fun _ => False.elim, fun s t hr => ?_⟩
    have first := h s t hr
    cases hs : m s with
    | ok x s' =>
      rw [hs] at first
      obtain ⟨t', ht, hr'⟩ := first
      exact .inr ⟨x, t', ht, rfl, hr'⟩
    | error f s' =>
      rw [hs] at first
      exact first.imp_right .inr

/-- A run that follows an unexcused one on the same states ends as that one does. -/
theorem Follows.eq {excused : ε → Prop} {m n : EStateM ε σ α} (h : Follows excused Eq m n)
    {s : σ} (stops : ∀ f t, m s = .error f t → ¬ excused f) : n s = m s := by
  have run := h s s rfl
  cases hs : m s with
  | ok x t =>
    rw [hs] at run
    obtain ⟨_, same, rfl⟩ := run
    exact same
  | error f t =>
    rw [hs] at run
    obtain ⟨_, same, rfl⟩ := run.resolve_left (stops f t hs)
    exact same

theorem Simulates.pure {x y : α} (h : g x = g y) :
    Simulates C g (pure x : EStateM ε σ α) (pure y : EStateM ε τ α) where
  stays _ h := h
  ends _ t hr := .inr ⟨y, t, rfl, h, hr⟩

theorem Simulates.throw (f : ε) :
    Simulates C g (throw f : EStateM ε σ α) (throw f : EStateM ε τ α) where
  stays _ h := h
  ends _ t hr := .inr (.inr ⟨t, rfl, hr⟩)

/-- Whatever the second run does, the first one may stop with an excused fault. -/
theorem Simulates.excuse {f : ε} (h : C.excused f) (n : EStateM ε τ α) :
    Simulates C g (MonadExcept.throw f : EStateM ε σ α) n where
  stays _ h := h
  ends _ _ _ := .inl h

/-- Results that are the same after `g` may be compared by less. -/
theorem Simulates.weaken {m : EStateM ε σ α} {n : EStateM ε τ α} {k : α → δ}
    (hm : Simulates C g m n) (h : ∀ x y, g x = g y → k x = k y) : Simulates C k m n where
  stays := hm.stays
  ends s t hr := by
    have first := hm.ends s t hr
    cases hs : m s with
    | ok x s' =>
      rw [hs] at first
      exact first.imp_right fun ⟨y, t', ht, same, hr'⟩ => ⟨y, t', ht, h x y same, hr'⟩
    | error f s' =>
      rw [hs] at first
      exact first

theorem Simulates.bind {m : EStateM ε σ α} {n : EStateM ε τ α} {k : α → EStateM ε σ β}
    {l : α → EStateM ε τ β} (hm : Simulates C g m n)
    (hk : ∀ x y, g x = g y → Simulates C g' (k x) (l y)) :
    Simulates C g' (m >>= k) (n >>= l) where
  stays s hs := by
    have first := hm.stays s hs
    change C.escaped (stateLeft (EStateM.bind m k s))
    unfold EStateM.bind
    cases h : m s with
    | ok x s' =>
      rw [h] at first
      exact (hk x x rfl).stays s' first
    | error f s' =>
      rw [h] at first
      exact first
  ends s t hr := by
    have first := hm.ends s t hr
    change match EStateM.bind m k s with
      | .ok x s' => C.escaped s' ∨
          ∃ y t', EStateM.bind n l t = .ok y t' ∧ g' x = g' y ∧ C.related s' t'
      | .error f s' => C.excused f ∨ C.escaped s' ∨
          ∃ t', EStateM.bind n l t = .error f t' ∧ C.related s' t'
    cases hs : m s with
    | ok x s' =>
      rw [hs] at first
      simp only [EStateM.bind, hs]
      rcases first with escaped | ⟨y, t', ht, same, hr'⟩
      · -- The second run is left behind, and the rest of the first one does not come back.
        have rest := (hk x x rfl).stays s' escaped
        cases hx : k x s' with
        | ok z s'' =>
          rw [hx] at rest
          exact .inl rest
        | error f s'' =>
          rw [hx] at rest
          exact .inr (.inl rest)
      · simp only [ht]
        exact (hk x y same).ends s' t' hr'
    | error f s' =>
      rw [hs] at first
      simp only [EStateM.bind, hs]
      exact first.imp_right fun first => first.imp_right fun ⟨t', ht, hr'⟩ =>
        ⟨t', by rw [ht], hr'⟩

end Runs

variable {σ τ : Type} {C : Coupling Fault σ τ} {f : Float → Float}

theorem Simulates.lift {α γ : Type} {g : α → γ} {x y : Except Fault α} (h : x.map g = y.map g) :
    Simulates C g (lift x : Run σ α) (lift y : Run τ α) := by
  cases x with
  | ok x =>
    cases y with
    | ok y => exact .pure (Except.ok.inj h)
    | error e => cases h
  | error d =>
    cases y with
    | ok y => cases h
    | error e =>
      cases h
      exact .throw d

/-- Values that no change can make equal are compared as they are. -/
theorem Simulates.of_mapNumbers_id {m : Run σ Value} {n : Run τ Value}
    (hm : Simulates C (Value.mapNumbers id) m n) : Simulates C id m n :=
  hm.weaken fun v w same => by
    rwa [Value.mapNumbers_id, Value.mapNumbers_id] at same

structure Environment.Alike (f : Float → Float) (env env' : Environment) : Prop where
  views : env.views.map (View.mapNumbers f) = env'.views.map (View.mapNumbers f)
  functions : env.functions = env'.functions

def SinksSimulate (C : Coupling Fault σ τ) (f : Float → Float) (sink : Sink σ)
    (sink' : Sink τ) : Prop :=
  ∀ element p q, p.hasNaN = false → p.mapNumbers f = q.mapNumbers f →
    Simulates C id (sink element p) (sink' element q)

def CallsSimulate (C : Coupling Fault σ τ) (f : Float → Float) (call : Call σ)
    (call' : Call τ) : Prop :=
  ∀ name a b, Value.mapItems f a = Value.mapItems f b →
    Simulates C (Value.mapNumbers f) (call name a) (call' name b)

/-- Where no change is made, sinks are compared on equal patches. -/
theorem sinksSimulate_id {sink : Sink σ} {sink' : Sink τ}
    (h : ∀ element p, Simulates C id (sink element p) (sink' element p)) :
    SinksSimulate C id sink sink' := by
  intro element p q _ same
  rw [mapNumbers_id, mapNumbers_id] at same
  exact same ▸ h element p

theorem callsSimulate_id {call : Call σ} {call' : Call τ}
    (h : ∀ name a, Simulates C (Value.mapNumbers id) (call name a) (call' name a)) :
    CallsSimulate C id call call' := by
  intro name a b same
  rw [Value.mapItems_id, Value.mapItems_id] at same
  exact same ▸ h name a

/-! ## Writing -/

theorem isFinite_of_patchOf {fields : Keyed Value} {p : Patch} (h : patchOf fields = .ok p) :
    p.IsFinite := by
  obtain ⟨value, hv, rfl⟩ := map_ok h
  unfold patchValue at hv
  split at hv
  case h_6 =>
    split at hv
    · rename_i finite
      cases hv
      rintro _ ⟨⟩ _ ⟨⟩
      exact finite
    · cases hv
  all_goals
    cases hv <;> rintro _ ⟨⟩ _ ⟨⟩

theorem hasNaN_of_isFinite {p : Patch} (h : p.IsFinite) : p.hasNaN = false := by
  cases hv : p.value.join with
  | none => rw [Patch.hasNaN, hv, Option.any_none]
  | some d =>
    rw [Patch.hasNaN, hv, Option.any_some]
    cases d with
    | number x => exact Number.isNaN_of_isFinite (h _ hv x rfl)
    | bool | text => rfl

theorem hasNaN_of_patchOf {fields : Keyed Value} {p : Patch} (h : patchOf fields = .ok p) :
    p.hasNaN = false :=
  hasNaN_of_isFinite (isFinite_of_patchOf h)

section Writing
variable {env env' : Environment} {sink : Sink σ} {sink' : Sink τ}

theorem any_id_mapNumbers (views : List View) (id : String) :
    (views.map (View.mapNumbers f)).any (·.id == id) = views.any (·.id == id) :=
  List.any_map

theorem update_simulates (h : Unseen f) (he : env.Alike f env')
    (hs : SinksSimulate C f sink sink') (element : String) {fields fields' : Keyed Value}
    (hf : Value.mapFields f fields = Value.mapFields f fields') :
    Simulates C id (update env sink element fields) (update env' sink' element fields') := by
  have patches : (patchOf fields).map (Patch.mapNumbers f) =
      (patchOf fields').map (Patch.mapNumbers f) := by
    rw [← mapNumbers_patchOf h, hf, mapNumbers_patchOf h]
  unfold update
  rw [← any_id_mapNumbers (f := f) env.views, he.views, any_id_mapNumbers]
  split
  · cases hp : patchOf fields with
    | error d =>
      cases hq : patchOf fields' with
      | error e =>
        rw [hp, hq] at patches
        cases patches
        exact .throw d
      | ok q =>
        rw [hp, hq] at patches
        cases patches
    | ok p =>
      cases hq : patchOf fields' with
      | error e =>
        rw [hp, hq] at patches
        cases patches
      | ok q =>
        rw [hp, hq] at patches
        exact hs element p q (hasNaN_of_patchOf hp) (Except.ok.inj patches)
  · exact .throw _

def updateTarget : List Value → Except Fault (String × Keyed Value)
  | .string id :: .object fields :: _ => .ok (id, fields)
  | .string _ :: v :: _ => .error (.stateType v.typeName)
  | [.string _] => .error (.stateType Value.undefined.typeName)
  | v :: _ => .error (.idType v.typeName)
  | [] => .error .missingId

theorem updateCall_eq (arguments : List Value) :
    updateCall env sink arguments = lift (updateTarget arguments) >>= fun target =>
      update env sink target.1 target.2 >>= fun _ => pure .undefined := by
  rcases arguments with _ | ⟨v, _ | ⟨w, rest⟩⟩
  · rfl
  · cases v <;> rfl
  · cases v <;> cases w <;> rfl

theorem mapFields_updateTarget (h : Unseen f) (arguments : List Value) :
    (updateTarget (Value.mapItems f arguments)).map (fun t => (t.1, Value.mapFields f t.2)) =
      (updateTarget arguments).map (fun t => (t.1, Value.mapFields f t.2)) := by
  rcases arguments with _ | ⟨v, _ | ⟨w, rest⟩⟩
  · rfl
  · cases v <;> rfl
  · cases v with
    | string id =>
      cases w with
      | object fields =>
        refine congrArg (fun fields => Except.ok (id, fields)) ?_
        exact mapFields_mapFields h fields
      | _ => rfl
    | _ => rfl

theorem updateCall_simulates (h : Unseen f) (he : env.Alike f env')
    (hs : SinksSimulate C f sink sink') {a b : List Value}
    (hab : Value.mapItems f a = Value.mapItems f b) :
    Simulates C (Value.mapNumbers f) (updateCall env sink a) (updateCall env' sink' b) := by
  have targets := mapFields_updateTarget h a
  rw [hab, mapFields_updateTarget h] at targets
  rw [updateCall_eq, updateCall_eq]
  refine .bind (.lift targets.symm) fun target target' same => ?_
  obtain ⟨element, fields⟩ := target
  obtain ⟨element', fields'⟩ := target'
  obtain ⟨rfl, hf⟩ := Prod.mk.inj same
  exact .bind (update_simulates h he hs element hf) fun _ _ _ => .pure rfl

def resultFields : Value → Except Fault (Option (Keyed Value))
  | .object fields => .ok (some fields)
  | .undefined => .ok none
  | v => .error (.resultType v.typeName)

theorem mapFields_resultFields (h : Unseen f) (v : Value) :
    (resultFields (v.mapNumbers f)).map (Option.map (Value.mapFields f)) =
      (resultFields v).map (Option.map (Value.mapFields f)) := by
  cases v with
  | object fields =>
    exact congrArg (fun fields => Except.ok (some fields)) (mapFields_mapFields h fields)
  | _ => rfl

def putResult (env : Environment) (sink : Sink σ) (element : String) (v : Value) : Run σ Unit :=
  lift (resultFields v) >>= fun
    | some fields => update env sink element fields
    | none => pure ()

theorem runRule_eq (limit : Nat) (element : String) (rule : Expr) :
    runRule env sink limit element rule =
      evaluateTop env sink limit rule >>= putResult env sink element := by
  refine congrArg (evaluateTop env sink limit rule >>= ·) (funext fun v => ?_)
  cases v <;> rfl

theorem putResult_simulates (h : Unseen f) (he : env.Alike f env')
    (hs : SinksSimulate C f sink sink') (element : String) {v w : Value}
    (hv : v.mapNumbers f = w.mapNumbers f) :
    Simulates C id (putResult env sink element v) (putResult env' sink' element w) := by
  have results := mapFields_resultFields h v
  rw [hv, mapFields_resultFields h] at results
  refine .bind (.lift results.symm) fun fields fields' same => ?_
  cases fields <;> cases fields'
  case none.none => exact .pure rfl
  case some.some => exact update_simulates h he hs element (Option.some.inj same)
  all_goals cases same

end Writing

/-! ## Expressions and statements -/

section Calls
variable {env env' : Environment} {call : Call σ} {call' : Call τ}

theorem lookUp_alike (he : env.Alike f env') {locals locals' : Locals}
    (hl : Value.mapFields f locals = Value.mapFields f locals') (name : String) :
    (lookUp env locals name).map (Value.mapNumbers f) =
      (lookUp env' locals' name).map (Value.mapNumbers f) := by
  have elements : env.elements.mapNumbers f = env'.elements.mapNumbers f := by
    simp only [Environment.elements, Value.mapNumbers, Value.mapItems_eq, List.map_map]
    have mapped (views : List View) : views.map (Value.mapNumbers f ∘ View.toValue) =
        (views.map (View.mapNumbers f)).map View.toValue := by
      rw [List.map_map]
      exact List.map_congr_left fun v _ => (toValue_mapNumbers v).symm
    rw [mapped, he.views, mapped]
  have local_values := congrArg (Keyed.get? · name) hl
  simp only [Value.mapFields_eq, Keyed.get?_mapValues] at local_values
  unfold lookUp
  cases hv : Keyed.get? locals name <;> cases hw : Keyed.get? locals' name <;>
    rw [hv, hw] at local_values
  case none.none =>
    by_cases named : name = "elements"
    · simp only [named, ↓reduceIte]
      exact congrArg Except.ok elements
    · simp only [named, ↓reduceIte]
  case some.some => exact congrArg Except.ok (Option.some.inj local_values)
  all_goals cases local_values

mutual

theorem evaluate_simulates (h : Unseen f) (he : env.Alike f env')
    (hc : CallsSimulate C f call call') {locals locals' : Locals}
    (hl : Value.mapFields f locals = Value.mapFields f locals') (e : Expr) :
    Simulates C (Value.mapNumbers f) (evaluate env call locals e)
      (evaluate env' call' locals' e) := by
  cases e with
  | literal v => simpa only [evaluate] using .pure rfl
  | name n => simpa only [evaluate] using .lift (lookUp_alike he hl n)
  | array items =>
    simp only [evaluate]
    exact .bind (evaluateItems_simulates h he hc hl items) fun _ _ hv =>
      .pure (congrArg Value.array hv)
  | object fields =>
    simp only [evaluate]
    refine .bind (evaluateFields_simulates h he hc hl fields) fun v w hv => .pure ?_
    rw [Value.mapFields_eq, Value.mapFields_eq] at hv
    simp only [Value.mapNumbers, Value.mapFields_eq, Keyed.mapValues_ofList, hv]
  | unary op e =>
    simp only [evaluate]
    refine .bind (evaluate_simulates h he hc hl e) fun v w hv => .pure ?_
    rw [← mapNumbers_unary h, hv, mapNumbers_unary h]
  | binary op e g =>
    simp only [evaluate]
    refine .bind (evaluate_simulates h he hc hl e) fun v w hv =>
      .bind (evaluate_simulates h he hc hl g) fun v' w' hw => .lift ?_
    rw [← mapNumbers_binary h, hv, hw, mapNumbers_binary h]
  | logical op e g =>
    simp only [evaluate]
    refine .bind (evaluate_simulates h he hc hl e) fun v w hv => ?_
    rw [← decides_mapNumbers h, hv, decides_mapNumbers h]
    split
    · exact .pure hv
    · exact evaluate_simulates h he hc hl g
  | conditional c e g =>
    simp only [evaluate]
    refine .bind (evaluate_simulates h he hc hl c) fun v w hv => ?_
    rw [← Value.truthy_mapNumbers h, hv, Value.truthy_mapNumbers h]
    split
    · exact evaluate_simulates h he hc hl e
    · exact evaluate_simulates h he hc hl g
  | call function arguments =>
    simp only [evaluate]
    exact .bind (evaluateItems_simulates h he hc hl arguments) fun _ _ hv => hc _ _ _ hv
  | member e name =>
    simp only [evaluate]
    refine .bind (evaluate_simulates h he hc hl e) fun v w hv => .lift ?_
    rw [← mapNumbers_property h, hv, mapNumbers_property h]
  | index e g =>
    simp only [evaluate]
    refine .bind (evaluate_simulates h he hc hl e) fun v w hv =>
      .bind (evaluate_simulates h he hc hl g) fun v' w' hw => .lift ?_
    rw [← mapNumbers_propertyAt h, hv, hw, mapNumbers_propertyAt h]

theorem evaluateItems_simulates (h : Unseen f) (he : env.Alike f env')
    (hc : CallsSimulate C f call call') {locals locals' : Locals}
    (hl : Value.mapFields f locals = Value.mapFields f locals') (items : List (Item Expr)) :
    Simulates C (Value.mapItems f) (evaluateItems env call locals items)
      (evaluateItems env' call' locals' items) := by
  match items with
  | [] => simpa only [evaluateItems] using .pure rfl
  | .one e :: rest =>
    simp only [evaluateItems]
    refine .bind (evaluate_simulates h he hc hl e) fun v w hv =>
      .bind (evaluateItems_simulates h he hc hl rest) fun vs ws hvs => .pure ?_
    rw [Value.mapItems, Value.mapItems, hv, hvs]
  | .spread e :: rest =>
    simp only [evaluateItems]
    refine .bind (evaluate_simulates h he hc hl e) fun v w hv =>
      .bind (.lift (g := Value.mapItems f) ?_) fun _ _ hs =>
        .bind (evaluateItems_simulates h he hc hl rest) fun vs ws hvs => .pure ?_
    · rw [← spreadItems_mapNumbers, hv, spreadItems_mapNumbers]
    · rw [Value.mapItems_eq, Value.mapItems_eq] at hs hvs ⊢
      rw [List.map_append, List.map_append, hs, hvs]

theorem evaluateFields_simulates (h : Unseen f) (he : env.Alike f env')
    (hc : CallsSimulate C f call call') {locals locals' : Locals}
    (hl : Value.mapFields f locals = Value.mapFields f locals')
    (fields : List (String × Expr)) :
    Simulates C (Value.mapFields f) (evaluateFields env call locals fields)
      (evaluateFields env' call' locals' fields) := by
  match fields with
  | [] => simpa only [evaluateFields] using .pure rfl
  | (name, e) :: rest =>
    simp only [evaluateFields]
    refine .bind (evaluate_simulates h he hc hl e) fun v w hv =>
      .bind (evaluateFields_simulates h he hc hl rest) fun vs ws hvs => .pure ?_
    rw [Value.mapFields, Value.mapFields, hv, hvs]

end

def Flow.mapNumbers (f : Float → Float) : Flow → Flow
  | .next locals => .next (Value.mapFields f locals)
  | .returned v => .returned (v.mapNumbers f)

theorem mapFields_insert (name : String) {v w : Value} {locals locals' : Locals}
    (hl : Value.mapFields f locals = Value.mapFields f locals')
    (hv : v.mapNumbers f = w.mapNumbers f) :
    Value.mapFields f (locals.insert name v) = Value.mapFields f (locals'.insert name w) := by
  rw [Value.mapFields_eq, Value.mapFields_eq] at hl ⊢
  rw [Keyed.mapValues_insert, Keyed.mapValues_insert, hl, hv]

theorem isSome_mapFields (name : String) {locals locals' : Locals}
    (hl : Value.mapFields f locals = Value.mapFields f locals') :
    (locals.get? name).isSome = (locals'.get? name).isSome := by
  rw [Value.mapFields_eq, Value.mapFields_eq] at hl
  rw [← Option.isSome_map (f := Value.mapNumbers f), ← Keyed.get?_mapValues, hl,
    Keyed.get?_mapValues, Option.isSome_map]

mutual

theorem execute_simulates (h : Unseen f) (he : env.Alike f env')
    (hc : CallsSimulate C f call call') {locals locals' : Locals}
    (hl : Value.mapFields f locals = Value.mapFields f locals') (s : Stmt) :
    Simulates C (Flow.mapNumbers f) (execute env call locals s)
      (execute env' call' locals' s) := by
  cases s with
  | expr e =>
    simp only [execute]
    exact .bind (evaluate_simulates h he hc hl e) fun _ _ _ => .pure (congrArg Flow.next hl)
  | declare name e =>
    simp only [execute]
    exact .bind (evaluate_simulates h he hc hl e) fun _ _ hv =>
      .pure (congrArg Flow.next (mapFields_insert name hl hv))
  | assign name e =>
    simp only [execute]
    refine .bind (evaluate_simulates h he hc hl e) fun v w hv => ?_
    rw [isSome_mapFields name hl]
    split
    · exact .pure (congrArg Flow.next (mapFields_insert name hl hv))
    · exact .throw _
  | branch c yes no =>
    simp only [execute]
    refine .bind (evaluate_simulates h he hc hl c) fun v w hv => ?_
    rw [← Value.truthy_mapNumbers h, hv, Value.truthy_mapNumbers h]
    split
    · exact executeAll_simulates h he hc hl yes
    · exact executeOptional_simulates h he hc hl no
  | block body =>
    simp only [execute]
    exact executeAll_simulates h he hc hl body
  | «return» e =>
    cases e with
    | none => simpa only [execute] using .pure rfl
    | some e =>
      simp only [execute]
      exact .bind (evaluate_simulates h he hc hl e) fun _ _ hv =>
        .pure (congrArg Flow.returned hv)

theorem executeAll_simulates (h : Unseen f) (he : env.Alike f env')
    (hc : CallsSimulate C f call call') {locals locals' : Locals}
    (hl : Value.mapFields f locals = Value.mapFields f locals') (body : List Stmt) :
    Simulates C (Flow.mapNumbers f) (executeAll env call locals body)
      (executeAll env' call' locals' body) := by
  match body with
  | [] => simpa only [executeAll] using .pure (congrArg Flow.next hl)
  | s :: rest =>
    simp only [executeAll]
    refine .bind (execute_simulates h he hc hl s) fun flow flow' same => ?_
    cases flow <;> cases flow'
    case next.next => exact executeAll_simulates h he hc (Flow.next.inj same) rest
    case returned.returned => exact .pure same
    all_goals cases same

theorem executeOptional_simulates (h : Unseen f) (he : env.Alike f env')
    (hc : CallsSimulate C f call call') {locals locals' : Locals}
    (hl : Value.mapFields f locals = Value.mapFields f locals') (body : Option (List Stmt)) :
    Simulates C (Flow.mapNumbers f) (executeOptional env call locals body)
      (executeOptional env' call' locals' body) := by
  match body with
  | none => simpa only [executeOptional] using .pure (congrArg Flow.next hl)
  | some body =>
    simp only [executeOptional]
    exact executeAll_simulates h he hc hl body

end

end Calls

/-! ## Calls, rules and passes -/

section Sinks
variable {env env' : Environment} {sink : Sink σ} {sink' : Sink τ}

theorem mapFields_bind (p : Parameters) (arguments : List Value) :
    Value.mapFields f (p.bind arguments) = p.bind (Value.mapItems f arguments) := by
  have argument (i : Nat) : (((Value.mapItems f arguments)[i]?).getD .undefined) =
      (((arguments[i]?).getD .undefined).mapNumbers f) := by
    rw [Value.mapItems_eq, List.getElem?_map]
    cases arguments[i]? <;> rfl
  have fold (named : List (String × Nat)) (locals : Locals) :
      Keyed.mapValues (Value.mapNumbers f) (named.foldl
          (fun locals n => Keyed.insert n.1 ((arguments[n.2]?).getD .undefined) locals) locals) =
        named.foldl (fun locals n => Keyed.insert n.1
          (((Value.mapItems f arguments)[n.2]?).getD .undefined) locals)
          (Keyed.mapValues (Value.mapNumbers f) locals) := by
    induction named generalizing locals with
    | nil => rfl
    | cons first named ih => rw [List.foldl_cons, ih, Keyed.mapValues_insert, ← argument,
        List.foldl_cons]
  unfold Parameters.bind
  rw [Value.mapFields_eq]
  cases p.rest with
  | none => exact fold _ []
  | some name =>
    simp only [Keyed.mapValues_insert, fold, Value.mapNumbers, Value.mapItems_eq, List.map_drop]
    rfl

theorem mapNumbers_value (flow : Flow) :
    (flow.mapNumbers f).value = flow.value.mapNumbers f := by
  cases flow <;> rfl

theorem mapNumbers_value_congr {flow flow' : Flow} (h : flow.mapNumbers f = flow'.mapNumbers f) :
    flow.value.mapNumbers f = flow'.value.mapNumbers f := by
  rw [← mapNumbers_value, h, mapNumbers_value]

theorem callNamed_simulates (h : Unseen f) (he : env.Alike f env')
    {enter : Function → List Value → Run σ Value} {enter' : Function → List Value → Run τ Value}
    {name : String} {a b : List Value} (hab : Value.mapItems f a = Value.mapItems f b)
    (hu : name = "updateState" →
      Simulates C (Value.mapNumbers f) (updateCall env sink a) (updateCall env' sink' b))
    (hf : ∀ function, Simulates C (Value.mapNumbers f) (enter function a) (enter' function b)) :
    Simulates C (Value.mapNumbers f) (callNamed env sink enter name a)
      (callNamed env' sink' enter' name b) := by
  unfold callNamed
  rw [he.functions]
  split
  · rename_i update
    exact hu update
  · split
    · exact hf _
    · split
      · refine .lift ?_
        rw [← mapNumbers_aggregate h, he.views, hab, mapNumbers_aggregate h]
      · exact .throw _

theorem mapFields_bind_congr (p : Parameters) {a b : List Value}
    (hab : Value.mapItems f a = Value.mapItems f b) :
    Value.mapFields f (p.bind a) = Value.mapFields f (p.bind b) := by
  rw [mapFields_bind, hab, mapFields_bind]

theorem invoke_simulates (h : Unseen f) (he : env.Alike f env')
    (hs : SinksSimulate C f sink sink') (limit room : Nat) :
    CallsSimulate C f (invoke env sink limit room) (invoke env' sink' limit room) := by
  induction room with
  | zero =>
    exact fun name a b hab => callNamed_simulates h he hab
      (fun _ => updateCall_simulates h he hs hab) fun _ => .throw _
  | succ room ih =>
    intro name a b hab
    have update := updateCall_simulates h he hs hab
    refine callNamed_simulates h he hab (fun _ => update) fun function => ?_
    have locals := mapFields_bind_congr function.parameters hab
    exact .bind (executeAll_simulates h he ih locals _) fun _ _ same =>
      .pure (mapNumbers_value_congr same)

theorem evaluateTop_simulates (h : Unseen f) (he : env.Alike f env')
    (hs : SinksSimulate C f sink sink') (limit : Nat) (e : Expr) :
    Simulates C (Value.mapNumbers f) (evaluateTop env sink limit e)
      (evaluateTop env' sink' limit e) :=
  evaluate_simulates h he (invoke_simulates h he hs limit limit) rfl e

theorem runRule_simulates (h : Unseen f) (he : env.Alike f env')
    (hs : SinksSimulate C f sink sink') (limit : Nat) (element : String) (rule : Expr) :
    Simulates C id (runRule env sink limit element rule)
      (runRule env' sink' limit element rule) := by
  rw [runRule_eq, runRule_eq]
  exact .bind (evaluateTop_simulates h he hs limit rule) fun _ _ hv =>
    putResult_simulates h he hs element hv

end Sinks

def Coupling.named (C : Coupling Fault σ τ) : Coupling EvaluationError σ τ :=
  ⟨C.related, fun e => C.excused e.fault, C.escaped⟩

/-- Naming the element of a fault keeps the relation. -/
theorem Simulates.adapt {α γ : Type} {g : α → γ} {m : Run σ α} {n : Run τ α}
    (hm : Simulates C g m n) (element : Option String) :
    Simulates C.named g (m.adaptExcept (EvaluationError.mk · element))
      (n.adaptExcept (EvaluationError.mk · element)) where
  stays s hs := by
    have first := hm.stays s hs
    unfold EStateM.adaptExcept
    cases h : m s <;> rw [h] at first <;> exact first
  ends s t hr := by
    have first := hm.ends s t hr
    simp only [EStateM.adaptExcept]
    cases hs : m s with
    | ok x s' =>
      rw [hs] at first
      exact first.imp_right fun ⟨y, t', ht, same, hr'⟩ => ⟨y, t', by rw [ht], same, hr'⟩
    | error e s' =>
      rw [hs] at first
      exact first.imp_right fun first => first.imp_right fun ⟨t', ht, hr'⟩ =>
        ⟨t', by rw [ht], hr'⟩

end ScoreSheet.Rule

namespace ScoreSheet.Program

open Rule

variable {σ τ : Type} {C : Coupling Fault σ τ} {sink : Sink σ} {sink' : Sink τ}

theorem runRules_simulates {f : Float → Float} (h : Unseen f) {env env' : Environment}
    (he : env.Alike f env') (hs : SinksSimulate C f sink sink') (limit : Nat)
    (rules : List (String × Expr)) :
    Simulates C.named id (runRules env sink limit rules) (runRules env' sink' limit rules) := by
  induction rules with
  | nil => exact .pure rfl
  | cons first rules ih =>
    obtain ⟨element, rule⟩ := first
    exact .bind ((runRule_simulates h he hs limit element rule).adapt (some element))
      fun _ _ _ => ih

/-- On the same views, sinks that follow each other are all that the runs differ in. -/
theorem runRules_follows {R : σ → τ → Prop} {env : Environment}
    (h : ∀ id patch, Follows (fun _ => False) R (sink id patch) (sink' id patch)) (limit : Nat)
    (rules : List (String × Expr)) :
    Follows (fun _ => False) R (runRules env sink limit rules)
      (runRules env sink' limit rules) := by
  have sinks : SinksSimulate (.strict R) id sink sink' :=
    sinksSimulate_id fun element p => simulates_excusing.2 (h element p)
  exact simulates_excusing.1 (runRules_simulates unseen_id ⟨rfl, rfl⟩ sinks limit rules)

end ScoreSheet.Program
