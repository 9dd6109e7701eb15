import ScoreSheet.Proofs.Document.SavedState
import ScoreSheet.Proofs.Session.Writes
import ScoreSheet.Proofs.State.Contents
set_option autoImplicit false

namespace ScoreSheet

open Rule

namespace Session

/-- What is true of finite values, of the saved ones and of those that operations bring in
is true of all values in the store. -/
theorem performAll_holds {P : Datum → Prop} (finite : ∀ d : Datum, d.IsFinite → P d)
    {s : Session} {ops : List Operation}
    (given : ∀ op ∈ ops, ∀ d, op.Gives s.sheet d → P d) (start : s.store.Holds P) :
    (s.performAll ops).2.store.Holds P := by
  refine (performAll_keeps (I := fun t => t.sheet = s.sheet ∧ t.store.Holds P) ?_ ⟨rfl, start⟩).2
  rintro t op hop ⟨same, before⟩
  refine ⟨(t.perform_sheet op).trans same, (t.perform_becomes op).keeps ?_ ?_⟩
  · intro store w allowed held
    refine held.apply (fun d hd => ?_) w.id
    rcases allowed.given d hd with hd | hd
    · exact finite d hd
    · exact given op hop d (same ▸ hd)
  · cases op with
    | restore saved limits =>
      exact fun e he d hd => given _ hop d ⟨e, Store.mem_ofEntries he, hd⟩
    | reset => exact List.forall_mem_nil _
    | select | clearRuleSet | evaluate | click | setValue | verdict => exact before

/-- From a saved text or nothing on, every number in the store is finite, or an operation has
brought it in as it is: as the value that the caller sets, or as an option that is clicked. -/
theorem performAll_finite (sheet : Sheet) (saved : List Entry) (limits : Limits)
    (ops : List Operation)
    (read : saved = [] ∨ ∃ text, Document.parseStates text = .ok saved) :
    ∀ e ∈ ((restore sheet saved limits).performAll ops).2.store.entries, ∀ d ∈ e.value,
      d.IsFinite ∨ ∃ op ∈ ops, op.Gives sheet d := by
  have start : (Store.ofEntries saved).Holds
      fun d => d.IsFinite ∨ ∃ op ∈ ops, op.Gives sheet d := by
    intro e he d hd
    rcases read with rfl | ⟨text, read⟩
    · cases he
    · exact .inl (Document.parseStates_isFinite read e (Store.mem_ofEntries he) d hd)
  exact performAll_holds (s := restore sheet saved limits) (fun d hd => .inl hd)
    (fun op hop d hd => .inr ⟨op, hop, hd⟩) start

def single : Sheet where
  name := "single"
  version := ⟨1, 0, 0⟩
  ruleSets := none
  elements := [⟨"n", .number, ⟨0.0, 0.0⟩, ⟨0.0, 0.0⟩, none, []⟩]
  resources := none

theorem performAll_finite_single :
    ∃ saved, Document.parseStates "[\x7b\"id\":\"n\",\"value\":0.5\x7d]" = .ok saved ∧
      ∀ e ∈ ((restore single saved .default).performAll
          [.setValue "n" (some (.number 1.5)), .evaluate]).2.store.entries,
        ∀ d ∈ e.value, d.IsFinite ∨
          ∃ op ∈ [.setValue "n" (some (.number 1.5)), .evaluate], Operation.Gives single op d := by
  have readable :
      (Document.parseStates "[\x7b\"id\":\"n\",\"value\":0.5\x7d]").isOk = true := by
    decide +kernel
  cases read : Document.parseStates "[\x7b\"id\":\"n\",\"value\":0.5\x7d]" with
  | error e =>
    rw [read] at readable
    cases readable
  | ok saved => exact ⟨saved, rfl, performAll_finite single saved .default _ (.inr ⟨_, read⟩)⟩

/-- NaN is kept when the caller sets it. -/
theorem setValue_nan : ¬ ((start single .default).performAll
    [.setValue "n" (some (.number Number.nan))]).2.store.Holds Datum.IsFinite := by
  intro finite
  have stored : Number.isFinite Number.nan = true :=
    finite ⟨"n", some (.number Number.nan), none⟩ List.mem_cons_self _ rfl _ rfl
  revert stored
  decide

end Session

end ScoreSheet
