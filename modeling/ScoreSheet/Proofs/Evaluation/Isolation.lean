import ScoreSheet.Proofs.Evaluation.Writes
set_option autoImplicit false

/-! The writes that a pass issues and the fault that ends it are computed from the views,
the functions and the call limit alone. The store goes through those writes one by one. -/
namespace ScoreSheet

open Rule

/-- The first part runs the rules against any store, not only the one that the views
were taken from, and compares what they are seen to write with the trace. -/
theorem Program.pass_isolated (p : Program) (snapshot : List View) (limit : Nat) (store : Store) :
    runRules ⟨snapshot, p.functions⟩ (noting storeSink) limit p.rules ((store, false), []) =
        (p.trace snapshot limit).result ()
          (store.replay (p.trace snapshot limit).writes, (p.trace snapshot limit).writes) ∧
      runRules ⟨snapshot, p.functions⟩ storeSink limit p.rules (store, false) =
        (p.trace snapshot limit).result () (store.replay (p.trace snapshot limit).writes) ∧
      (∀ elements, p.pass elements limit store =
        (p.trace (views elements store) limit).result
          (store.changedBy (p.trace (views elements store) limit).writes)
          (store.applyAll (p.trace (views elements store) limit).writes)) ∧
      (∀ writes, store.changedBy writes = true ↔ ∃ before w after,
        writes = before ++ w :: after ∧
          ((store.applyAll before).apply w.id w.patch).2 = true) ∧
      (∀ env arguments, FailsClean (updateCall env storeSink arguments)) ∧
      (∀ env id fields, FailsClean (update env storeSink id fields)) := by
  refine ⟨?_, p.runRules_storeSink snapshot limit store,
    fun elements => p.pass_eq_replay elements limit store, store.changedBy_iff,
    fun env arguments => updateCall_failsClean storeSink_failsClean arguments,
    fun env id fields => update_failsClean storeSink_failsClean id fields⟩
  obtain ⟨⟨state, noted⟩, ⟨hs, hn⟩, run⟩ := p.runRules_trace snapshot limit
    (noting_follows (storeSink_follows store)) (s := ((store, false), [])) ⟨rfl, rfl⟩
  subst hs hn
  exact run

end ScoreSheet
