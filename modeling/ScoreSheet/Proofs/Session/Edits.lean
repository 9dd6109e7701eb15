import ScoreSheet.Proofs.Session.Operation
import ScoreSheet.Proofs.State.Contents
set_option autoImplicit false

namespace ScoreSheet

open Rule

theorem Element.readAnswer_given (e : Element) (answer : String) :
    ∀ d ∈ e.readAnswer answer, d.IsFinite ∨ d ∈ e.options.getD [] := by
  intro d hd
  unfold readAnswer at hd
  split at hd
  · dsimp only at hd
    split at hd
    · cases hd
    · rename_i passed
      rw [Bool.or_eq_true, not_or, Bool.not_eq_true', Bool.not_eq_false] at passed
      cases hd
      refine .inl fun x hx => ?_
      cases hx
      exact passed.2
  · split at hd <;> cases hd
    exact .inl fun x hx => nomatch hx
  · exact .inr (List.mem_of_find?_eq_some hd)
  · cases hd
    exact .inl fun x hx => nomatch hx

def EditOutcome.isUpdate : EditOutcome → Bool
  | updated .. => true
  | missed | rejected _ | cancelled _ => false

namespace EditContext

theorem evaluateActive_eq (ctx : EditContext) (store : Store) :
    ctx.evaluateActive store =
      match ctx.ruleSet with
      | none => .ok none store
      | some r =>
        match evaluate r ctx.elements ctx.limits store with
        | .ok report s => .ok (some report) s
        | .error err s => .error err s := by
  unfold evaluateActive
  cases ctx.ruleSet with
  | none => rfl
  | some r =>
    change EStateM.bind (evaluate r ctx.elements ctx.limits) _ store = _
    unfold EStateM.bind
    dsimp only
    cases evaluate r ctx.elements ctx.limits store <;> rfl

theorem applyEdit_eq (ctx : EditContext) (id : String) (value : Option Datum) (store : Store) :
    ctx.applyEdit id value store =
      match ctx.evaluateActive (store.setValue id value).1 with
      | .ok report s => .ok (.updated id (statesDiffer store.entries s.entries) report) s
      | .error err s => .error err s := by
  change EStateM.bind ctx.evaluateActive _ (store.setValue id value).1 = _
  unfold EStateM.bind
  cases ctx.evaluateActive (store.setValue id value).1 <;> rfl

theorem setValue_eq (ctx : EditContext) (e : Element) (value : Option Datum) (store : Store) :
    ctx.setValue e value store =
      if store.isDisabled e.id then .ok (.rejected e.id) store
      else ctx.applyEdit e.id value store := by
  change (if store.isDisabled e.id then pure (EditOutcome.rejected e.id)
    else ctx.applyEdit e.id value : EStateM RuleError Store EditOutcome) store = _
  split <;> rfl

theorem setValue_cases (ctx : EditContext) (e : Element) (value : Option Datum) (store : Store) :
    (∃ outcome : EditOutcome, outcome.isUpdate = false ∧
      ctx.setValue e value store = .ok outcome store) ∨
      ctx.setValue e value store = ctx.applyEdit e.id value store := by
  rw [setValue_eq]
  split
  · exact .inl ⟨_, rfl, rfl⟩
  · exact .inr rfl

/-- A click edits an element, with a value that is finite or one of its options, or leaves
the store alone. -/
theorem click_cases (ctx : EditContext) (p : Point) (scale : Float)
    (prompt : Question → Option String) (store : Store) :
    (∃ outcome : EditOutcome, outcome.isUpdate = false ∧
      (ctx.click p scale store).answered prompt = .ok outcome store) ∨
      ∃ e ∈ ctx.elements, ∃ value : Option Datum,
        (∀ d ∈ value, d.IsFinite ∨ d ∈ e.options.getD []) ∧
          (ctx.click p scale store).answered prompt = ctx.applyEdit e.id value store := by
  unfold click
  split
  · exact .inl ⟨_, rfl, rfl⟩
  · rename_i e hit
    have known : e ∈ ctx.elements := List.mem_of_find?_eq_some hit
    split
    · exact .inl ⟨_, rfl, rfl⟩
    · split
      · refine .inr ⟨e, known, _, fun d hd => ?_, rfl⟩
        cases hd
        exact .inl fun x hx => nomatch hx
      · simp only [Interaction.answered]
        split
        · exact .inl ⟨_, rfl, rfl⟩
        · exact .inr ⟨e, known, _, e.readAnswer_given _, rfl⟩

end EditContext

end ScoreSheet
