import ScoreSheet.Proofs.Evaluation.Simulation
import ScoreSheet.Proofs.State.Patch
set_option autoImplicit false

/-! A pass reads its views and never the store. So it issues one list of writes and ends
one way, whatever the store holds meanwhile, and what it does to the store is to
apply those writes from left to right. A call that fails contributes nothing. -/
namespace ScoreSheet

open Rule

structure Write where
  id : String
  patch : Patch

namespace Store

def applyAll (s : Store) (writes : List Write) : Store :=
  writes.foldl (fun s w => (s.apply w.id w.patch).1) s

def changedBy (s : Store) : List Write → Bool
  | [] => false
  | w :: ws => (s.apply w.id w.patch).2 || (s.apply w.id w.patch).1.changedBy ws

theorem applyAll_concat (s : Store) (writes : List Write) (w : Write) :
    s.applyAll (writes ++ [w]) = ((s.applyAll writes).apply w.id w.patch).1 := by
  simp only [applyAll, List.foldl_append, List.foldl_cons, List.foldl_nil]

theorem changedBy_concat (s : Store) (writes : List Write) (w : Write) :
    s.changedBy (writes ++ [w]) =
      (s.changedBy writes || ((s.applyAll writes).apply w.id w.patch).2) := by
  induction writes generalizing s with
  | nil => simp only [List.nil_append, changedBy, applyAll, List.foldl_nil, Bool.or_comm]
  | cons v writes ih =>
    simp only [List.cons_append, changedBy, ih, Bool.or_assoc]
    rfl

theorem changedBy_iff (s : Store) (writes : List Write) :
    s.changedBy writes = true ↔ ∃ before w after, writes = before ++ w :: after ∧
      ((s.applyAll before).apply w.id w.patch).2 = true := by
  induction writes generalizing s with
  | nil => simp [changedBy]
  | cons v writes ih =>
    simp only [changedBy, Bool.or_eq_true, ih]
    constructor
    · rintro (h | ⟨before, w, after, rfl, h⟩)
      · exact ⟨[], v, writes, rfl, h⟩
      · exact ⟨v :: before, w, after, rfl, h⟩
    · rintro ⟨before, w, after, he, h⟩
      cases before with
      | nil =>
        obtain ⟨rfl, rfl⟩ := List.cons.inj he
        exact .inl h
      | cons u before =>
        obtain ⟨rfl, rfl⟩ := List.cons.inj he
        exact .inr ⟨before, w, after, rfl, h⟩

theorem applyAll_eq_self {s : Store} {writes : List Write} (h : s.changedBy writes = false) :
    s.applyAll writes = s := by
  induction writes with
  | nil => rfl
  | cons w writes ih =>
    obtain ⟨hw, ht⟩ := Bool.or_eq_false_iff.1 h
    rw [apply_eq_self hw] at ht
    change ((s.apply w.id w.patch).1).applyAll writes = s
    rw [apply_eq_self hw]
    exact ih ht

/-- Writes change nothing together if none changes anything by itself. -/
theorem changedBy_eq_false {s : Store} {writes : List Write} :
    s.changedBy writes = false ↔ ∀ w ∈ writes, (s.apply w.id w.patch).2 = false := by
  induction writes with
  | nil => simp [changedBy]
  | cons w writes ih =>
    rw [changedBy, Bool.or_eq_false_iff, List.forall_mem_cons, ← ih]
    refine and_congr_right fun unchanged => ?_
    rw [apply_eq_self unchanged]

end Store

def record : Sink (List Write) := fun id patch writes => .ok () (writes ++ [⟨id, patch⟩])

def noting {σ : Type} (sink : Sink σ) : Sink (σ × List Write) := fun id patch state =>
  match sink id patch state.1 with
  | .ok _ s => .ok () (s, state.2 ++ [⟨id, patch⟩])
  | .error f s => .error f (s, state.2)

/-- What a pass does: the writes that it issues and the fault that ends it. -/
structure Trace where
  writes : List Write
  failure : Option EvaluationError

def Trace.result {σ α : Type} (t : Trace) (x : α) (s : σ) : EStateM.Result EvaluationError σ α :=
  match t.failure with
  | none => .ok x s
  | some e => .error e s

/-- The trace of a pass over views. No store takes part in it. -/
def Program.trace (p : Program) (views : List View) (limit : Nat) : Trace :=
  match runRules ⟨views, p.functions⟩ record limit p.rules [] with
  | .ok _ writes => ⟨writes, none⟩
  | .error e writes => ⟨writes, some e⟩

/-- A sink that keeps a relation to the recorded writes ends every pass as the
trace says, related to all of its writes. -/
theorem Program.runRules_trace {σ : Type} (p : Program) (views : List View) (limit : Nat)
    {sink : Sink σ} {R : List Write → σ → Prop}
    (h : ∀ id patch, Follows (fun _ => False) R (record id patch) (sink id patch)) {s : σ}
    (hs : R [] s) : ∃ s', R (p.trace views limit).writes s' ∧
      runRules ⟨views, p.functions⟩ sink limit p.rules s = (p.trace views limit).result () s' := by
  have run : Follows (fun _ => False) R (runRules ⟨views, p.functions⟩ record limit p.rules)
      (runRules ⟨views, p.functions⟩ sink limit p.rules) := runRules_follows h limit p.rules
  replace run := run [] s hs
  unfold trace
  cases hr : runRules ⟨views, p.functions⟩ record limit p.rules [] with
  | ok _ writes =>
    rw [hr] at run
    obtain ⟨s', hn, hw⟩ := run
    exact ⟨s', hw, hn⟩
  | error e writes =>
    rw [hr] at run
    obtain ⟨s', hn, hw⟩ := run.resolve_left id
    exact ⟨s', hw, hn⟩

/-- Noting the writes of a sink does not change what the sink does with them. -/
theorem noting_follows {σ : Type} {sink : Sink σ} {R : List Write → σ → Prop}
    (h : ∀ id patch, Follows (fun _ => False) R (record id patch) (sink id patch)) (id : String)
    (patch : Patch) :
    Follows (fun _ => False) (fun writes s => R writes s.1 ∧ s.2 = writes) (record id patch)
      (noting sink id patch) := by
  rintro writes ⟨s, noted⟩ ⟨hr, rfl⟩
  obtain ⟨s', hs, hr'⟩ := h id patch _ s hr
  exact ⟨(s', noted ++ [⟨id, patch⟩]), by simp only [noting, hs], hr', rfl⟩

def Store.replay (s : Store) (writes : List Write) : Store × Bool :=
  (s.applyAll writes, s.changedBy writes)

theorem storeSink_follows (store : Store) (id : String) (patch : Patch) :
    Follows (fun _ => False) (fun writes state => state = store.replay writes)
      (record id patch) (storeSink id patch) := by
  rintro writes _ rfl
  refine ⟨store.replay (writes ++ [⟨id, patch⟩]), ?_, rfl⟩
  simp only [Store.replay, Store.applyAll_concat, Store.changedBy_concat]
  rfl

theorem Program.runRules_storeSink (p : Program) (views : List View) (limit : Nat)
    (store : Store) :
    runRules ⟨views, p.functions⟩ storeSink limit p.rules (store, false) =
      (p.trace views limit).result () (store.replay (p.trace views limit).writes) := by
  obtain ⟨_, rfl, run⟩ := p.runRules_trace views limit (storeSink_follows store) rfl
  exact run

theorem Program.pass_eq_replay (p : Program) (elements : List Element) (limit : Nat)
    (store : Store) :
    p.pass elements limit store = (p.trace (views elements store) limit).result
      (store.changedBy (p.trace (views elements store) limit).writes)
      (store.applyAll (p.trace (views elements store) limit).writes) := by
  unfold pass environment
  rw [runRules_storeSink]
  unfold Trace.result
  cases (p.trace (views elements store) limit).failure <;> rfl

/-- If the run stops with a fault, its state is still the one it began with. -/
def FailsClean {σ α : Type} (m : Run σ α) : Prop :=
  ∀ s f s', m s = .error f s' → s' = s

variable {σ : Type} {env : Environment} {sink : Sink σ}

theorem update_failsClean (h : ∀ id patch, FailsClean (sink id patch)) (id : String)
    (fields : Keyed Value) : FailsClean (update env sink id fields) := by
  intro s f s' he
  unfold update at he
  split at he
  · cases hp : patchOf fields with
    | error fault =>
      rw [hp] at he
      cases he
      rfl
    | ok patch =>
      rw [hp] at he
      exact h id patch s f s' he
  · cases he
    rfl

theorem updateCall_failsClean (h : ∀ id patch, FailsClean (sink id patch))
    (arguments : List Value) : FailsClean (updateCall env sink arguments) := by
  intro s f s' he
  unfold updateCall at he
  split at he
  · rename_i id fields _
    change EStateM.bind (update env sink id fields) (fun _ => pure Value.undefined) s = _ at he
    unfold EStateM.bind at he
    split at he
    · cases he
    · rename_i hu
      cases he
      exact update_failsClean h id fields s f s' hu
  all_goals
    cases he
    rfl

theorem storeSink_failsClean (id : String) (patch : Patch) :
    FailsClean (storeSink id patch) := by
  intro s f s' he
  cases he

end ScoreSheet
