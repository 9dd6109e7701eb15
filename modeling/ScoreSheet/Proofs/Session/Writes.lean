import ScoreSheet.Proofs.Evaluation.Admission
import ScoreSheet.Proofs.Session.Edits
set_option autoImplicit false

/-! An operation goes on from the store of the session, or from another one if it opens the
sheet anew or resets it, and then patches elements only. The values come from rules, from
the user of the session or from the options of an element, and rules provide no number that
is not finite. -/
namespace ScoreSheet

open Rule

namespace EditContext
variable {ctx : EditContext} {allowed : Write → Prop}

theorem evaluateActive_becomes (ctx : EditContext) (store : Store) :
    store.Becomes (Write.Admissible (ctx.elements.map Element.id))
      (storeLeft (ctx.evaluateActive store)) := by
  rw [evaluateActive_eq]
  cases ctx.ruleSet with
  | none => exact .refl _ store
  | some r =>
    have left := evaluate_becomes r ctx.elements ctx.limits store
    dsimp only
    cases he : evaluate r ctx.elements ctx.limits store <;> rwa [he] at left

theorem applyEdit_becomes {id : String} {value : Option Datum} (edit : allowed ⟨id, some value, none⟩)
    (rules : ∀ w, w.Admissible (ctx.elements.map Element.id) → allowed w) (store : Store) :
    store.Becomes allowed (storeLeft (ctx.applyEdit id value store)) := by
  have edited : store.Becomes allowed (store.setValue id value).1 := by
    rw [Store.setValue_eq_apply]
    exact .single edit store
  have left := edited.trans ((ctx.evaluateActive_becomes _).mono rules)
  rw [applyEdit_eq]
  cases he : ctx.evaluateActive (store.setValue id value).1 <;> rwa [he] at left

end EditContext

namespace Operation

def origin (store : Store) : Operation → Store
  | restore saved _ => .ofEntries saved
  | reset => .empty
  | select _ | clearRuleSet | evaluate | click .. | setValue .. | verdict => store

/-- Whether a value comes into the store with the operation as it is, from the caller, a
saved list or the options of an element. -/
def Gives (sheet : Sheet) : Operation → Datum → Prop
  | restore saved _, d => ∃ e ∈ saved, d ∈ e.value
  | setValue _ value, d => d ∈ value
  | click .., d => ∃ e ∈ sheet.elements, d ∈ e.options.getD []
  | select _, _ | clearRuleSet, _ | evaluate, _ | reset, _ | verdict, _ => False

/-- Whether the operation may make a write, by itself or by the rules that it runs. -/
structure Allows (sheet : Sheet) (op : Operation) (w : Write) : Prop where
  known : w.id ∈ sheet.elements.map Element.id
  given : ∀ d ∈ w.patch.value.join, d.IsFinite ∨ op.Gives sheet d

theorem allows_of_admissible {sheet : Sheet} (op : Operation) {w : Write}
    (h : w.Admissible (sheet.elements.map Element.id)) : op.Allows sheet w where
  known := h.known
  given d hd := .inl (h.finite d hd)

end Operation

namespace Session
variable {s : Session}

theorem after_store {α : Type} (s : Session) (r : EStateM.Result RuleError Store α) :
    (s.after r).2.store = storeLeft r := by
  cases r <;> rfl

theorem evaluate_becomes (s : Session) :
    s.store.Becomes (Write.Admissible (s.sheet.elements.map Element.id)) s.evaluate.2.store := by
  unfold evaluate
  split
  · exact .refl _ s.store
  · rw [after_store]
    exact ScoreSheet.evaluate_becomes _ _ _ _

/-- What a step of a session does to its store, also if it fails. -/
theorem perform_becomes (s : Session) (op : Operation) :
    (op.origin s.store).Becomes (op.Allows s.sheet) (s.perform op).2.store := by
  have rules (w : Write) (h : w.Admissible (s.sheet.elements.map Element.id)) :
      op.Allows s.sheet w := op.allows_of_admissible h
  cases op with
  | restore | clearRuleSet | verdict => exact .refl _ _
  | select name =>
    change s.store.Becomes _ (s.select name).2.store
    unfold select
    split
    · exact .refl _ s.store
    · exact (evaluate_becomes { s with active := some name }).mono rules
  | evaluate => exact s.evaluate_becomes.mono rules
  | click p scale prompt =>
    change s.store.Becomes _ ((s.click p scale).answered prompt).2.store
    rw [click, answered_map, after_store]
    rcases s.context.click_cases p scale prompt s.store with
      ⟨outcome, -, kept⟩ | ⟨e, known, value, given, edited⟩
    · rw [kept]
      exact .refl _ s.store
    · rw [edited]
      refine EditContext.applyEdit_becomes ⟨List.mem_map_of_mem known, fun d hd => ?_⟩ rules s.store
      exact (given d hd).imp_right fun option => ⟨e, known, option⟩
  | setValue id value =>
    change s.store.Becomes _ (s.setValue id value).2.store
    unfold setValue
    split
    · exact .refl _ s.store
    · rename_i e found
      rw [after_store]
      rcases s.context.setValue_cases e value s.store with ⟨outcome, -, kept⟩ | edited
      · rw [kept]
        exact .refl _ s.store
      · rw [edited]
        refine EditContext.applyEdit_becomes ⟨?_, fun d hd => .inr hd⟩ rules s.store
        exact List.mem_map_of_mem (List.mem_of_find?_eq_some found)
  | reset => exact (evaluate_becomes { s with store := .empty }).mono rules

/-- What the operations of a list keep, step by step, holds after all of them. -/
theorem performAll_keeps {I : Session → Prop} {ops : List Operation}
    (keep : ∀ s, ∀ op ∈ ops, I s → I (s.perform op).2) (hs : I s) : I (s.performAll ops).2 := by
  induction ops generalizing s with
  | nil => exact hs
  | cons op ops ih =>
    exact ih (fun s op later => keep s op (List.mem_cons_of_mem _ later))
      (keep s op List.mem_cons_self hs)

theorem performAll_sheet (s : Session) (ops : List Operation) :
    (s.performAll ops).2.sheet = s.sheet :=
  performAll_keeps (I := fun t => t.sheet = s.sheet)
    (fun t op _ same => (t.perform_sheet op).trans same) rfl

end Session

end ScoreSheet
