import ScoreSheet.Proofs.Session.Restoration
import ScoreSheet.Proofs.State.Comparison
set_option autoImplicit false

namespace ScoreSheet

namespace EditContext

/-- Whether a result that reports an update tells if the store differs from the one before. -/
def Tells (store : Store) : EStateM.Result RuleError Store EditOutcome → Prop
  | .ok (.updated _ rerender _) t => rerender = statesDiffer store.entries t.entries
  | .ok _ _ | .error _ _ => True

theorem tells_of_idle {store t : Store} {outcome : EditOutcome} (h : outcome.isUpdate = false) :
    Tells store (.ok outcome t) := by
  cases outcome with
  | updated => cases h
  | missed | rejected | cancelled => trivial

theorem tells_applyEdit (ctx : EditContext) (id : String) (value : Option Datum) (store : Store) :
    Tells store (ctx.applyEdit id value store) := by
  rw [applyEdit_eq]
  cases ctx.evaluateActive (store.setValue id value).1 with
  | ok report t => rfl
  | error e t => trivial

end EditContext

namespace Session
variable {s : Session}

theorem rerender_after {result : EStateM.Result RuleError Store EditOutcome} {id : String}
    {rerender : Bool} {report : Option Report} (tells : EditContext.Tells s.store result)
    (h : ((s.after result).map Answer.edit).1 = .ok (.edit (.updated id rerender report))) :
    rerender = statesDiffer s.store.entries ((s.after result).map Answer.edit).2.store.entries := by
  cases result with
  | ok outcome t =>
    cases h
    exact tells
  | error e t => cases h

theorem exists_of_map {α : Type} {f : α → Answer} {x : Except SessionError α} {answer : Answer}
    (h : x.map f = .ok answer) : ∃ y, f y = answer := by
  cases x with
  | ok y => exact ⟨y, Except.ok.inj h⟩
  | error e => cases h

/-- An operation that updates an element tells whether its store differs from the one before. -/
theorem rerender_perform {op : Operation} {id : String} {rerender : Bool}
    {report : Option Report} (h : (s.perform op).1 = .ok (.edit (.updated id rerender report))) :
    rerender = statesDiffer s.store.entries (s.perform op).2.store.entries := by
  cases op with
  | click p scale prompt =>
    have click : s.perform (.click p scale prompt) =
        (s.after ((s.context.click p scale s.store).answered prompt)).map .edit :=
      congrArg (Step.map _) (answered_map _ _ _)
    rw [click] at h ⊢
    refine rerender_after ?_ h
    rcases s.context.click_cases p scale prompt s.store with
      ⟨outcome, still, kept⟩ | ⟨e, -, value, -, edited⟩
    · exact kept ▸ EditContext.tells_of_idle still
    · exact edited ▸ s.context.tells_applyEdit e.id value s.store
  | setValue id value =>
    cases found : s.sheet.element? id with
    | none =>
      have unknown : s.perform (.setValue id value) = (.error (.unknownElement id), s) := by
        change (s.setValue id value).map _ = _
        rw [setValue, found]
        rfl
      rw [unknown] at h
      cases h
    | some e =>
      have set : s.perform (.setValue id value) =
          (s.after (s.context.setValue e value s.store)).map .edit := by
        change (s.setValue id value).map _ = _
        rw [setValue, found]
      rw [set] at h ⊢
      refine rerender_after ?_ h
      rcases s.context.setValue_cases e value s.store with ⟨outcome, still, kept⟩ | edited
      · exact kept ▸ EditContext.tells_of_idle still
      · exact edited ▸ s.context.tells_applyEdit e.id value s.store
  | restore | clearRuleSet => cases h
  | select name => obtain ⟨_, ⟨⟩⟩ := exists_of_map (x := (s.select name).1) h
  | evaluate => obtain ⟨_, ⟨⟩⟩ := exists_of_map (x := s.evaluate.1) h
  | reset => obtain ⟨_, ⟨⟩⟩ := exists_of_map (x := s.reset.1) h
  | verdict => obtain ⟨_, ⟨⟩⟩ := exists_of_map (x := s.verdict) h

end Session

/-- The comparison of states is an equivalence where all numbers are numbers, whatever the
order of different ids is. What it does not find different is shown and saved with equal
contents, before and after every update that need not be drawn. -/
theorem statesDiffer_lawful :
    (Equivalence fun a b : {entries : List Entry // ∀ e ∈ entries, e.hasNaN = false} =>
      statesDiffer a.1 b.1 = false) ∧
    (∀ a a' b b' : List Entry, SameById a a' → SameById b b' →
      statesDiffer a b = statesDiffer a' b') ∧
    (∀ a a' : List Entry, (a.map Entry.id).Nodup → a.Perm a' → SameById a a') ∧
    (∀ a b : List Entry, statesDiffer a b = false →
      (∀ elements, (views elements (.ofEntries a) == views elements (.ofEntries b)) = true) ∧
        ((a.map Entry.id).Nodup → (b.map Entry.id).Nodup →
          ∃ c : List Entry, c.Perm (prune b) ∧ (prune a == c) = true)) ∧
    ∀ (sheet : Sheet) (saved : List Entry) (limits : Limits) (ops : List Operation)
      (op : Operation) (id : String) (report : Option Report),
      let s := ((Session.restore sheet saved limits).performAll ops).2
      let t := (s.perform op).2
      (s.perform op).1 = .ok (.edit (.updated id false report)) →
        (views sheet.elements s.store == views sheet.elements t.store) = true ∧
          ∃ c : List Entry, c.Perm t.savedState ∧ (s.savedState == c) = true := by
  refine ⟨⟨fun a => statesDiffer_self a.2, fun h => (statesDiffer_comm _ _).trans h, fun h k => ?_⟩,
    fun _ _ _ _ => statesDiffer_congr, fun _ _ => SameById.of_perm, fun a b h => ⟨?_, ?_⟩, ?_⟩
  · exact statesDiffer_iff_alike.2 ((statesDiffer_iff_alike.1 h).trans (statesDiffer_iff_alike.1 k))
  · exact (statesDiffer_iff_alike.1 h).views
  · intro ha hb
    have alike := statesDiffer_iff_alike.1 h
    rw [Store.ofEntries_of_nodup ha, Store.ofEntries_of_nodup hb] at alike
    exact alike.prune
  · intro sheet saved limits ops op id report s t updated
    have once : s.store.ids.Nodup := Session.nodup_performAll sheet saved limits ops
    have alike : s.store.Alike t.store :=
      (Store.statesDiffer_eq_false once (Session.nodup_perform once op)).1
        (Session.rerender_perform updated).symm
    exact ⟨alike.views sheet.elements, alike.prune⟩

end ScoreSheet
