import ScoreSheet.Proofs.Evaluation.FixedPoint
import ScoreSheet.Proofs.State.Contents
set_option autoImplicit false

/-! Every write of a rule has passed two checks: that an element has the id, and that the value
is no number that is not finite. So the checks may as well be made by the sink, and what a
sink that makes them takes is known. -/
namespace ScoreSheet

open Rule

/-- Whether a write goes to one of the ids and provides no number that is not finite. -/
structure Write.Admissible (ids : List String) (w : Write) : Prop where
  known : w.id ∈ ids
  finite : w.patch.IsFinite

namespace Rule
variable {σ : Type} {env : Environment} {sink sink' : Sink σ}

theorem updateCall_congr (h : ∀ id fields, update env sink id fields = update env sink' id fields)
    (arguments : List Value) : updateCall env sink arguments = updateCall env sink' arguments := by
  rw [updateCall_eq, updateCall_eq]
  simp only [h]

theorem invoke_congr (h : ∀ id fields, update env sink id fields = update env sink' id fields)
    (limit room : Nat) : invoke env sink limit room = invoke env sink' limit room := by
  induction room with
  | zero =>
    funext name arguments
    simp only [invoke, callNamed, updateCall_congr h]
  | succ room ih =>
    funext name arguments
    simp only [invoke, callNamed, updateCall_congr h, ih]

theorem runRule_congr (h : ∀ id fields, update env sink id fields = update env sink' id fields)
    (limit : Nat) (element : String) (rule : Expr) :
    runRule env sink limit element rule = runRule env sink' limit element rule := by
  simp only [runRule, evaluateTop, invoke_congr h, h]

def admitting (ids : List String) (sink : Sink σ) : Sink σ := fun id patch =>
  if id ∈ ids ∧ patch.IsFinite then sink id patch else pure ()

theorem update_admitting (id : String) (fields : Keyed Value) :
    update env (admitting (env.views.map View.id) sink) id fields = update env sink id fields := by
  unfold update
  split
  · rename_i seen
    obtain ⟨v, known, same⟩ := List.any_eq_true.1 seen
    cases hp : patchOf fields with
    | error f => rfl
    | ok patch =>
      change admitting _ sink id patch = sink id patch
      exact if_pos ⟨List.mem_map.2 ⟨v, known, beq_iff_eq.1 same⟩, isFinite_of_patchOf hp⟩
  · rfl

end Rule

namespace Program
variable {σ : Type} {env : Environment} {sink sink' : Sink σ}

theorem runRules_congr
    (h : ∀ id fields, update env sink id fields = update env sink' id fields) (limit : Nat)
    (rules : List (String × Expr)) :
    runRules env sink limit rules = runRules env sink' limit rules := by
  induction rules with
  | nil => rfl
  | cons first rules ih => simp only [runRules, runRule_congr h, ih]

/-- What rules write is admissible for the ids that they see. -/
theorem trace_admissible (p : Program) (snapshot : List View) (limit : Nat) :
    ∀ w ∈ (p.trace snapshot limit).writes, w.Admissible (snapshot.map View.id) := by
  have follows (id : String) (patch : Patch) : Follows (fun _ => False)
      (fun writes writes' => writes = writes' ∧ ∀ w ∈ writes, w.Admissible (snapshot.map View.id))
      (admitting (snapshot.map View.id) record id patch)
      (admitting (snapshot.map View.id) record id patch) := by
    rintro writes _ ⟨rfl, before⟩
    unfold admitting
    by_cases passed : id ∈ snapshot.map View.id ∧ patch.IsFinite
    · rw [if_pos passed]
      refine ⟨_, rfl, rfl, List.forall_mem_append.2 ⟨before, List.forall_mem_singleton.2 ?_⟩⟩
      exact ⟨passed.1, passed.2⟩
    · rw [if_neg passed]
      exact ⟨writes, rfl, rfl, before⟩
  have run : Follows _ _ (runRules ⟨snapshot, p.functions⟩ _ limit p.rules)
      (runRules ⟨snapshot, p.functions⟩ _ limit p.rules) := runRules_follows follows limit p.rules
  replace run := run [] [] ⟨rfl, List.forall_mem_nil _⟩
  rw [runRules_congr update_admitting] at run
  unfold trace
  cases hr : runRules ⟨snapshot, p.functions⟩ record limit p.rules [] with
  | ok x writes =>
    rw [hr] at run
    obtain ⟨_, -, -, admissible⟩ := run
    exact admissible
  | error e writes =>
    rw [hr] at run
    obtain ⟨_, -, -, admissible⟩ := run.resolve_left id
    exact admissible

end Program

/-- Whether writes of a kind make one store of another. -/
def Store.Becomes (allowed : Write → Prop) (s t : Store) : Prop :=
  ∃ writes : List Write, (∀ w ∈ writes, allowed w) ∧ t = s.applyAll writes

namespace Store.Becomes
variable {allowed more : Write → Prop} {s t u : Store}

theorem refl (allowed : Write → Prop) (s : Store) : s.Becomes allowed s :=
  ⟨[], List.forall_mem_nil _, rfl⟩

theorem single {w : Write} (h : allowed w) (s : Store) :
    s.Becomes allowed (s.apply w.id w.patch).1 :=
  ⟨[w], List.forall_mem_singleton.2 h, rfl⟩

theorem trans (h : s.Becomes allowed t) (h' : t.Becomes allowed u) : s.Becomes allowed u := by
  obtain ⟨writes, permitted, rfl⟩ := h
  obtain ⟨writes', permitted', rfl⟩ := h'
  exact ⟨writes ++ writes', List.forall_mem_append.2 ⟨permitted, permitted'⟩,
    List.foldl_append.symm⟩

theorem mono (h : s.Becomes allowed t) (wider : ∀ w, allowed w → more w) : s.Becomes more t := by
  obtain ⟨writes, permitted, rfl⟩ := h
  exact ⟨writes, fun w hw => wider w (permitted w hw), rfl⟩

/-- What one write keeps stays. -/
theorem keeps {I : Store → Prop} (h : s.Becomes allowed t)
    (keep : ∀ s w, allowed w → I s → I (s.apply w.id w.patch).1) (hs : I s) : I t := by
  obtain ⟨writes, permitted, rfl⟩ := h
  induction writes generalizing s with
  | nil => exact hs
  | cons w writes ih =>
    obtain ⟨hw, permitted⟩ := List.forall_mem_cons.1 permitted
    exact ih (keep s w hw hs) permitted

end Store.Becomes

def storeLeft {ε α : Type} : EStateM.Result ε Store α → Store
  | .ok _ s | .error _ s => s

namespace Program
variable {p : Program} {elements : List Element} {limit : Nat} {store : Store}

theorem pass_becomes (p : Program) (elements : List Element) (limit : Nat) (store : Store) :
    store.Becomes (Write.Admissible (elements.map Element.id))
      (storeLeft (p.pass elements limit store)) := by
  refine ⟨(p.trace (views elements store) limit).writes, fun w hw => ?_, ?_⟩
  · have admissible := p.trace_admissible (views elements store) limit w hw
    rwa [views, List.map_map] at admissible
  · rw [pass_eq_replay, Trace.result]
    split <;> rfl

theorem settle_becomes (p : Program) (elements : List Element) (limit reruns : Nat)
    (store : Store) : store.Becomes (Write.Admissible (elements.map Element.id))
      (storeLeft (p.settle elements limit reruns store)) := by
  induction reruns generalizing store with
  | zero =>
    have first := p.pass_becomes elements limit store
    rw [settle_zero]
    split <;> rename_i hp <;> rwa [hp] at first
  | succ reruns ih =>
    have first := p.pass_becomes elements limit store
    cases hp : p.pass elements limit store with
    | error e s =>
      rw [hp] at first
      rwa [settle_of_error hp]
    | ok changed s =>
      rw [hp] at first
      cases changed with
      | false => rwa [settle_of_pass hp]
      | true =>
        have rest := first.trans (ih s)
        rw [settle_of_change hp]
        split <;> rename_i hs <;> rwa [hs] at rest

end Program

/-- An evaluation writes to elements only and no number that is not finite, also if it
fails. -/
theorem evaluate_becomes (r : RuleSet) (elements : List Element) (limits : Limits)
    (store : Store) : store.Becomes (Write.Admissible (elements.map Element.id))
      (storeLeft (evaluate r elements limits store)) := by
  unfold evaluate
  cases Program.compile r elements with
  | error e => exact .refl _ store
  | ok p =>
    have settled := p.settle_becomes elements limits.callDepth limits.reruns store
    simp only [EStateM.adaptExcept]
    rw [Program.run_eq]
    cases hs : p.settle elements limits.callDepth limits.reruns store <;> rwa [hs] at settled

end ScoreSheet
