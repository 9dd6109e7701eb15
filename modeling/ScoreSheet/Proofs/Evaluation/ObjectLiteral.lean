import ScoreSheet.Proofs.Evaluation.Writes
import ScoreSheet.Proofs.Rule.WrittenObject
set_option autoImplicit false

/-! The parser drops a property that a later one of the object has the name of. The value of the
object does not show it, so what is lost is what the property would have written, or the
fault that would have ended the rule there. -/
namespace ScoreSheet.Rule

/-- The properties that a later one has the name of. -/
def replacedOf : List (String × Expr) → List (String × Expr)
  | [] => []
  | f :: later => if f.1 ∈ later.map Prod.fst then f :: replacedOf later else replacedOf later

mutual

/-- What the properties hold that later ones of their objects replace, at every depth. -/
def Expr.replaced : Expr → List Expr
  | .literal _ | .name _ => []
  | .array items => replacedItems items
  | .object fields => (replacedOf fields).map Prod.snd ++ replacedFields fields
  | .unary _ e => e.replaced
  | .binary _ e f => e.replaced ++ f.replaced
  | .logical _ e f => e.replaced ++ f.replaced
  | .conditional c e f => c.replaced ++ (e.replaced ++ f.replaced)
  | .call _ arguments => replacedItems arguments
  | .member e _ => e.replaced
  | .index e f => e.replaced ++ f.replaced

def replacedItems : List (Item Expr) → List Expr
  | [] => []
  | .one e :: rest => e.replaced ++ replacedItems rest
  | .spread e :: rest => e.replaced ++ replacedItems rest

def replacedFields : List (String × Expr) → List Expr
  | [] => []
  | (_, e) :: rest => e.replaced ++ replacedFields rest

end

/-- From every state the run has a result and leaves the state as it is. -/
def Quiet {σ α : Type} (m : Run σ α) : Prop := ∀ s, ∃ x, m s = .ok x s

section Objects
variable {σ : Type} {env : Environment} {call : Call σ} {locals : Locals}

def evaluateObject (env : Environment) (call : Call σ) (locals : Locals)
    (fields : List (String × Expr)) : Run σ (Keyed Value) := do
  let values ← evaluateFields env call locals fields
  pure (Keyed.ofList values)

theorem evaluate_object (fields : List (String × Expr)) :
    evaluate env call locals (.object fields) =
      evaluateObject env call locals fields >>= fun o => pure (.object o) := by
  rw [evaluate, evaluateObject, bind_assoc]
  rfl

theorem evaluateObject_cons (f : String × Expr) (later : List (String × Expr)) :
    evaluateObject env call locals (f :: later) =
      evaluate env call locals f.2 >>= fun v =>
        evaluateObject env call locals later >>= fun o => pure (o.insertNew f.1 v) := by
  simp only [evaluateObject, evaluateFields, bind_assoc, pure_bind, Keyed.ofList_cons]

theorem run_bind_ok {α β : Type} {m : Run σ α} {k : α → Run σ β} {s t : σ} {y : β}
    (h : (m >>= k) s = .ok y t) : ∃ x u, m s = .ok x u ∧ k x u = .ok y t := by
  change EStateM.bind m k s = _ at h
  unfold EStateM.bind at h
  cases hm : m s with
  | ok x u =>
    rw [hm] at h
    exact ⟨x, u, rfl, h⟩
  | error f u =>
    rw [hm] at h
    cases h

theorem run_bind_of_ok {α β : Type} {m : Run σ α} {k : α → Run σ β} {s t : σ} {x : α}
    (h : m s = .ok x t) : (m >>= k) s = k x t := by
  change EStateM.bind m k s = _
  unfold EStateM.bind
  rw [h]

theorem get?_evaluateObject {fields : List (String × Expr)} {s t : σ} {o : Keyed Value}
    (h : evaluateObject env call locals fields s = .ok o t) {name : String}
    (hn : name ∈ fields.map Prod.fst) : (o.get? name).isSome := by
  induction fields generalizing s t o with
  | nil => exact absurd hn List.not_mem_nil
  | cons f later ih =>
    rw [evaluateObject_cons] at h
    obtain ⟨v, u, -, h⟩ := run_bind_ok h
    obtain ⟨o', u', hl, h⟩ := run_bind_ok h
    cases h
    rw [Keyed.get?_insertNew, Option.isSome_or]
    rcases List.mem_cons.1 hn with rfl | hn
    · rw [if_pos rfl, Option.isSome_some, Bool.or_true]
    · rw [ih hl hn, Bool.true_or]

/-- Where everything that is replaced is quiet, it makes no difference. -/
theorem evaluateObject_lastOfEachName {fields : List (String × Expr)}
    (h : ∀ f ∈ replacedOf fields, Quiet (evaluate env call locals f.2)) :
    evaluateObject env call locals (lastOfEachName fields) =
      evaluateObject env call locals fields := by
  induction fields with
  | nil => rfl
  | cons f later ih =>
    rw [lastOfEachName, evaluateObject_cons]
    rw [replacedOf] at h
    split at h
    · rename_i named
      obtain ⟨quiet, hl⟩ := List.forall_mem_cons.1 h
      rw [if_pos named, ih hl]
      funext s
      obtain ⟨v, hv⟩ := quiet s
      rw [run_bind_of_ok hv]
      change _ = EStateM.bind (evaluateObject env call locals later) _ s
      unfold EStateM.bind
      cases ho : evaluateObject env call locals later s with
      | error e t => rfl
      | ok o t =>
        have same : o.insertNew f.1 v = o := if_pos (get?_evaluateObject ho named)
        dsimp only
        rw [same]
        rfl
    · rename_i unnamed
      rw [if_neg unnamed, evaluateObject_cons, ih h]

theorem map_fst_trimmedFields (fields : List (String × Expr)) :
    (trimmedFields fields).map Prod.fst = fields.map Prod.fst := by
  induction fields with
  | nil => rfl
  | cons f rest ih => exact congrArg (f.1 :: ·) ih

theorem replacedOf_trimmedFields (fields : List (String × Expr)) :
    replacedOf (trimmedFields fields) = trimmedFields (replacedOf fields) := by
  induction fields with
  | nil => rfl
  | cons f rest ih =>
    rw [trimmedFields, replacedOf, replacedOf, map_fst_trimmedFields, ih]
    split
    · rfl
    · rfl

theorem mem_trimmedFields {fields : List (String × Expr)} {g : String × Expr}
    (h : g ∈ trimmedFields fields) : ∃ f ∈ fields, g = (f.1, f.2.trimmed) := by
  induction fields with
  | nil => exact absurd h List.not_mem_nil
  | cons f rest ih =>
    rw [trimmedFields] at h
    rcases List.mem_cons.1 h with rfl | h
    · exact ⟨f, List.mem_cons_self, rfl⟩
    · obtain ⟨f', hf, hg⟩ := ih h
      exact ⟨f', List.mem_cons_of_mem f hf, hg⟩

theorem evaluateFields_trimmedFields {fields : List (String × Expr)}
    (h : ∀ f ∈ fields, evaluate env call locals f.2.trimmed = evaluate env call locals f.2) :
    evaluateFields env call locals (trimmedFields fields) =
      evaluateFields env call locals fields := by
  induction fields with
  | nil => rfl
  | cons f rest ih =>
    obtain ⟨hf, hr⟩ := List.forall_mem_cons.1 h
    simp only [trimmedFields, evaluateFields, hf, ih hr]

theorem mem_of_mem_replacedOf {fields : List (String × Expr)} {f : String × Expr}
    (h : f ∈ replacedOf fields) : f ∈ fields := by
  induction fields with
  | nil => exact h
  | cons g later ih =>
    rw [replacedOf] at h
    split at h
    · exact (List.mem_cons.1 h).elim (fun he => he ▸ List.mem_cons_self) fun hl =>
        List.mem_cons_of_mem g (ih hl)
    · exact List.mem_cons_of_mem g (ih h)

theorem evaluateObject_trimmed {fields : List (String × Expr)}
    (quiet : ∀ f ∈ replacedOf fields, Quiet (evaluate env call locals f.2))
    (h : ∀ f ∈ fields, evaluate env call locals f.2.trimmed = evaluate env call locals f.2) :
    evaluateObject env call locals (lastOfEachName (trimmedFields fields)) =
      evaluateObject env call locals fields := by
  rw [evaluateObject_lastOfEachName, evaluateObject, evaluateFields_trimmedFields h]
  · rfl
  · intro g hg
    rw [replacedOf_trimmedFields] at hg
    obtain ⟨f, hf, rfl⟩ := mem_trimmedFields hg
    rw [h f (mem_of_mem_replacedOf hf)]
    exact quiet f hf

mutual

theorem evaluate_trimmed (e : Expr)
    (h : ∀ f ∈ e.replaced, Quiet (evaluate env call locals f)) :
    evaluate env call locals e.trimmed = evaluate env call locals e := by
  cases e with
  | literal v => rfl
  | name n => rfl
  | array items =>
    simp only [Expr.trimmed, evaluate, evaluateItems_trimmed items h]
  | object fields =>
    rw [Expr.replaced] at h
    obtain ⟨quiet, inner⟩ := List.forall_mem_append.1 h
    rw [Expr.trimmed, evaluate_object, evaluate_object, evaluateObject_trimmed
      (fun f hf => quiet _ (List.mem_map_of_mem hf)) (fields_trimmed fields inner)]
  | unary op e => simp only [Expr.trimmed, evaluate, evaluate_trimmed e h]
  | binary op e f =>
    obtain ⟨he, hf⟩ := List.forall_mem_append.1 h
    simp only [Expr.trimmed, evaluate, evaluate_trimmed e he, evaluate_trimmed f hf]
  | logical op e f =>
    obtain ⟨he, hf⟩ := List.forall_mem_append.1 h
    simp only [Expr.trimmed, evaluate, evaluate_trimmed e he, evaluate_trimmed f hf]
  | conditional c e f =>
    obtain ⟨hc, h⟩ := List.forall_mem_append.1 h
    obtain ⟨he, hf⟩ := List.forall_mem_append.1 h
    simp only [Expr.trimmed, evaluate, evaluate_trimmed c hc, evaluate_trimmed e he,
      evaluate_trimmed f hf]
  | call function arguments =>
    simp only [Expr.trimmed, evaluate, evaluateItems_trimmed arguments h]
  | member e name => simp only [Expr.trimmed, evaluate, evaluate_trimmed e h]
  | index e f =>
    obtain ⟨he, hf⟩ := List.forall_mem_append.1 h
    simp only [Expr.trimmed, evaluate, evaluate_trimmed e he, evaluate_trimmed f hf]

theorem evaluateItems_trimmed (items : List (Item Expr))
    (h : ∀ f ∈ replacedItems items, Quiet (evaluate env call locals f)) :
    evaluateItems env call locals (trimmedItems items) =
      evaluateItems env call locals items := by
  match items with
  | [] => rfl
  | .one e :: rest =>
    obtain ⟨he, hr⟩ := List.forall_mem_append.1 h
    simp only [trimmedItems, evaluateItems, evaluate_trimmed e he,
      evaluateItems_trimmed rest hr]
  | .spread e :: rest =>
    obtain ⟨he, hr⟩ := List.forall_mem_append.1 h
    simp only [trimmedItems, evaluateItems, evaluate_trimmed e he,
      evaluateItems_trimmed rest hr]

theorem fields_trimmed (fields : List (String × Expr))
    (h : ∀ f ∈ replacedFields fields, Quiet (evaluate env call locals f)) :
    ∀ f ∈ fields, evaluate env call locals f.2.trimmed = evaluate env call locals f.2 := by
  match fields with
  | [] => exact List.forall_mem_nil _
  | (_, e) :: rest =>
    obtain ⟨he, hr⟩ := List.forall_mem_append.1 h
    exact List.forall_mem_cons.2 ⟨evaluate_trimmed e he, fields_trimmed rest hr⟩

end

end Objects

section Writes
variable {env : Environment} {limit room : Nat} {locals : Locals}

def Silent (env : Environment) (limit room : Nat) (locals : Locals) (e : Expr) : Prop :=
  ∃ v, evaluate env (invoke env record limit room) locals e [] = .ok v []

theorem evaluate_sinks (env : Environment) (limit room : Nat) (locals : Locals) {σ τ : Type}
    {C : Coupling Fault σ τ} {sink : Sink σ} {sink' : Sink τ}
    (h : SinksSimulate C id sink sink') (e : Expr) :
    Simulates C id (evaluate env (invoke env sink limit room) locals e)
      (evaluate env (invoke env sink' limit room) locals e) :=
  (evaluate_simulates unseen_id ⟨rfl, rfl⟩
    (invoke_simulates unseen_id ⟨rfl, rfl⟩ h limit room) rfl e).of_mapNumbers_id

/-- A run that has written nothing stands where any sink stands that was not called. -/
def Coupling.untouched {σ : Type} (s : σ) : Coupling Fault (List Write) σ where
  related writes t := writes = [] ∧ t = s
  excused _ := False
  escaped writes := writes ≠ []

theorem record_untouched {σ : Type} (s : σ) (sink : Sink σ) :
    SinksSimulate (.untouched s) id record sink := by
  refine sinksSimulate_id fun element p => ⟨fun writes _ => ?_, fun writes t _ => .inl ?_⟩ <;>
    exact List.append_ne_nil_of_right_ne_nil writes (List.cons_ne_nil _ _)

/-- What is silent is quiet for every sink. -/
theorem Silent.quiet {σ : Type} {e : Expr} (h : Silent env limit room locals e)
    (sink : Sink σ) : Quiet (evaluate env (invoke env sink limit room) locals e) := by
  intro s
  obtain ⟨v, hv⟩ := h
  have ends := (evaluate_sinks env limit room locals (record_untouched s sink) e).ends [] s
    ⟨rfl, rfl⟩
  rw [hv] at ends
  obtain ⟨w, t, hw, -, -, rfl⟩ := ends.resolve_left fun escaped => escaped rfl
  exact ⟨w, hw⟩

/-- Behind earlier writes, an expression does what it does behind none. -/
theorem evaluate_behind (e : Expr) (writes : List Write) :
    evaluate env (invoke env record limit room) locals e writes =
      match evaluate env (invoke env record limit room) locals e [] with
      | .ok v issued => .ok v (writes ++ issued)
      | .error f issued => .error f (writes ++ issued) := by
  have sinks : SinksSimulate (.strict fun issued all => all = writes ++ issued) id record record :=
    sinksSimulate_id fun element p => simulates_strict.2 fun issued all h => by
      subst h
      exact ⟨(), _, rfl, rfl, List.append_assoc writes issued _⟩
  have run := simulates_strict.1 (evaluate_sinks env limit room locals sinks e) [] writes
    (List.append_nil writes).symm
  cases h : evaluate env (invoke env record limit room) locals e [] with
  | ok v issued =>
    rw [h] at run
    obtain ⟨_, _, hw, rfl, rfl⟩ := run
    exact hw
  | error f issued =>
    rw [h] at run
    obtain ⟨_, hw, rfl⟩ := run
    exact hw

/-- What an expression writes, up to its fault if it has one. -/
def issued (env : Environment) (limit room : Nat) (locals : Locals) (e : Expr) : List Write :=
  stateLeft (evaluate env (invoke env record limit room) locals e [])

/-- An object with entries has issued the writes of its properties from left to right. -/
theorem evaluateObject_issued {fields : List (String × Expr)} {writes all : List Write}
    {o : Keyed Value}
    (h : evaluateObject env (invoke env record limit room) locals fields writes = .ok o all) :
    (∀ f ∈ fields, ∃ v, evaluate env (invoke env record limit room) locals f.2 [] =
        .ok v (issued env limit room locals f.2)) ∧
      all = writes ++ fields.flatMap fun f => issued env limit room locals f.2 := by
  induction fields generalizing writes all o with
  | nil =>
    cases h
    exact ⟨List.forall_mem_nil _, (List.append_nil writes).symm⟩
  | cons f later ih =>
    rw [evaluateObject_cons] at h
    obtain ⟨v, middle, hv, h⟩ := run_bind_ok h
    obtain ⟨o', all', ho, h⟩ := run_bind_ok h
    cases h
    obtain ⟨values, parts⟩ := ih ho
    rw [evaluate_behind] at hv
    cases first : evaluate env (invoke env record limit room) locals f.2 [] with
    | error fault behind =>
      rw [first] at hv
      cases hv
    | ok w behind =>
      rw [first] at hv
      cases hv
      have same : issued env limit room locals f.2 = behind := by rw [issued, first]; rfl
      refine ⟨List.forall_mem_cons.2 ⟨⟨v, by rw [first, same]⟩, values⟩, ?_⟩
      rw [parts, List.flatMap_cons, same, List.append_assoc]

theorem length_flatMap_replacedOf {α : Type} (g : String × Expr → List α)
    (fields : List (String × Expr)) :
    (fields.flatMap g).length =
      ((lastOfEachName fields).flatMap g).length + ((replacedOf fields).flatMap g).length := by
  induction fields with
  | nil => rfl
  | cons f later ih =>
    rw [lastOfEachName, replacedOf, List.flatMap_cons, List.length_append, ih]
    split
    · rw [List.flatMap_cons, List.length_append]
      omega
    · rw [List.flatMap_cons, List.length_append]
      omega

/-- An object that has a value without what is replaced has that value and the same writes
with it exactly if everything that is replaced is silent. -/
theorem object_agrees_iff {fields : List (String × Expr)} {v : Value} {writes : List Write}
    (h : evaluate env (invoke env record limit room) locals (.object (lastOfEachName fields)) [] =
      .ok v writes) :
    evaluate env (invoke env record limit room) locals (.object (lastOfEachName fields)) [] =
        evaluate env (invoke env record limit room) locals (.object fields) [] ↔
      ∀ f ∈ replacedOf fields, Silent env limit room locals f.2 := by
  constructor
  · intro same f hf
    have whole := same.symm.trans h
    rw [evaluate_object] at h whole
    obtain ⟨o, _, kept, hk⟩ := run_bind_ok h
    obtain ⟨o', _, all, ha⟩ := run_bind_ok whole
    cases hk
    cases ha
    obtain ⟨-, fewer⟩ := evaluateObject_issued kept
    obtain ⟨values, more⟩ := evaluateObject_issued all
    have lengths := length_flatMap_replacedOf
      (fun f => issued env limit room locals f.2) fields
    rw [List.nil_append] at fewer more
    rw [← fewer, ← more] at lengths
    have none : (replacedOf fields).flatMap (fun f => issued env limit room locals f.2) = [] :=
      List.eq_nil_of_length_eq_zero (by omega)
    obtain ⟨v, hv⟩ := values f (mem_of_mem_replacedOf hf)
    rw [List.flatMap_eq_nil_iff.1 none f hf] at hv
    exact ⟨v, hv⟩
  · intro silent
    rw [evaluate_object, evaluate_object,
      evaluateObject_lastOfEachName fun f hf => (silent f hf).quiet record]

end Writes

/-- A parsed expression is the written one without the properties that are replaced. It does
the same where all of them are silent; and where an object has a value without them, it only
does the same with them if they are. -/
theorem parsed_agrees_with_written {room links : Nat} {ts rest : Tokens} {e : Expr}
    (h : (grammar room).expression links ts = .ok (e, rest)) :
    ∃ written, (writtenGrammar room).expression links ts = .ok (written, rest) ∧
      e = written.trimmed ∧
      ∀ (env : Environment) (limit depth : Nat) (locals : Locals),
        ((∀ f ∈ written.replaced, Silent env limit depth locals f) →
          ∀ {σ : Type} (sink : Sink σ),
            evaluate env (invoke env sink limit depth) locals e =
              evaluate env (invoke env sink limit depth) locals written) ∧
        ∀ fields v writes, written = .object fields →
          evaluate env (invoke env record limit depth) locals e [] = .ok v writes →
          (evaluate env (invoke env record limit depth) locals e [] =
              evaluate env (invoke env record limit depth) locals
                (.object (trimmedFields fields)) [] ↔
            ∀ f ∈ replacedOf (trimmedFields fields), Silent env limit depth locals f.2) := by
  rw [(grammar_maps room).1] at h
  obtain ⟨⟨written, _⟩, read, same⟩ := map_ok h
  cases same
  refine ⟨written, read, rfl, fun env limit depth locals => ⟨fun silent _ sink => ?_, ?_⟩⟩
  · exact evaluate_trimmed written fun f hf => (silent f hf).quiet sink
  · rintro fields v writes rfl value
    exact object_agrees_iff value

def twiceNamed : Tokens :=
  [.sign .leftBrace, .name "a", .sign .colon, .keyword .true, .sign .comma,
    .name "a", .sign .colon, .keyword .false, .sign .rightBrace, .stop].map fun t => ⟨t, .start⟩

/-- A property that only has a value can be replaced. -/
theorem parsed_agrees_with_written_twiceNamed :
    (grammar 2).expression 0 twiceNamed =
        .ok (.object [("a", .literal (.bool false))], [⟨.stop, .start⟩]) ∧
      evaluate ⟨[], []⟩ (invoke ⟨[], []⟩ record 0 0) []
          (.object [("a", .literal (.bool false))]) =
        evaluate ⟨[], []⟩ (invoke ⟨[], []⟩ record 0 0) []
          (.object [("a", .literal (.bool true)), ("a", .literal (.bool false))]) := by
  have parsed : (grammar 2).expression 0 twiceNamed =
      .ok (.object [("a", .literal (.bool false))], [⟨.stop, .start⟩]) := rfl
  have all : (writtenGrammar 2).expression 0 twiceNamed =
      .ok (.object [("a", .literal (.bool true)), ("a", .literal (.bool false))],
        [⟨.stop, .start⟩]) := rfl
  obtain ⟨written, read, -, agrees⟩ := parsed_agrees_with_written parsed
  rw [all] at read
  cases read
  refine ⟨parsed, (agrees ⟨[], []⟩ 0 0 []).1 (fun f hf => ?_) record⟩
  cases List.mem_singleton.1 hf
  exact ⟨.bool true, rfl⟩

/-- The properties of an object; the first one turns `b` on and is replaced. -/
def overwritten : List (String × Expr) :=
  [("value", .call "updateState"
      [.one (.literal (.string "b")), .one (.object [("value", .literal (.bool true))])]),
    ("value", .literal (.bool false))]

/-- Both objects have the same value, but only the written one turns `b` on. -/
theorem replaced_write_lost :
    parseRule "\x7b value: updateState('b', \x7b value: true \x7d), value: false \x7d" =
        .ok (some (.object [("value", .literal (.bool false))])) ∧
      (tokenize "\x7b value: updateState('b', \x7b value: true \x7d), value: false \x7d" >>=
          (writtenGrammar nestingLimit).expression chainLimit).map Prod.fst =
        .ok (.object overwritten) ∧
      evaluate ⟨[⟨"b", .checkbox, none, false⟩], []⟩
          (invoke ⟨[⟨"b", .checkbox, none, false⟩], []⟩ record 64 64) []
          (.object [("value", .literal (.bool false))]) [] =
        .ok (.object [("value", .bool false)]) [] ∧
      evaluate ⟨[⟨"b", .checkbox, none, false⟩], []⟩
          (invoke ⟨[⟨"b", .checkbox, none, false⟩], []⟩ record 64 64) []
          (.object overwritten) [] =
        .ok (.object [("value", .bool false)]) [⟨"b", ⟨some (some (.bool true)), none⟩⟩] :=
  ⟨rfl, rfl, rfl, rfl⟩

end ScoreSheet.Rule
