import ScoreSheet.Proofs.Session.Writes
import ScoreSheet.Proofs.State.Extension
set_option autoImplicit false

/-! The store of a session holds entries of elements and of saved lists. Until the session is
reset or opened anew, an entry keeps its place, new ones come behind, and the entries that
belong to no element stay as they are. Steps that fail are no exception. -/
namespace ScoreSheet

open Rule

namespace Operation

def restarts : Operation → Bool
  | restore .. | reset => true
  | select _ | clearRuleSet | evaluate | click .. | setValue .. | verdict => false

def saved : Operation → List Entry
  | restore saved _ => saved
  | select _ | clearRuleSet | evaluate | click .. | setValue .. | reset | verdict => []

theorem origin_eq_self {op : Operation} (h : op.restarts = false) (store : Store) :
    op.origin store = store := by
  cases op <;> first | rfl | cases h

theorem mem_ids_origin (op : Operation) {store : Store} {id : String}
    (h : id ∈ (op.origin store).ids) : id ∈ store.ids ∨ id ∈ op.saved.map Entry.id := by
  cases op with
  | restore saved limits => exact .inr (Store.mem_ids_ofEntries.1 h)
  | reset => cases h
  | select | clearRuleSet | evaluate | click | setValue | verdict => exact .inl h

end Operation

namespace Session

/-- The store after an operation goes on from the one that its writes go to. -/
theorem perform_extends (s : Session) (op : Operation) :
    (op.origin s.store).Extends (s.sheet.elements.map Element.id) (s.perform op).2.store :=
  (s.perform_becomes op).keeps
    (I := (op.origin s.store).Extends (s.sheet.elements.map Element.id))
    (fun t w allowed before => before.trans (t.extends_apply allowed.known w.patch)) (.refl _ _)

theorem performAll_extends {s : Session} {ops : List Operation}
    (running : ∀ op ∈ ops, op.restarts = false) :
    s.store.Extends (s.sheet.elements.map Element.id) (s.performAll ops).2.store := by
  have extended : (s.performAll ops).2.sheet = s.sheet ∧
      s.store.Extends (s.sheet.elements.map Element.id) (s.performAll ops).2.store := by
    refine performAll_keeps (I := fun t => t.sheet = s.sheet ∧
      s.store.Extends (s.sheet.elements.map Element.id) t.store) ?_ ⟨rfl, .refl _ _⟩
    rintro t op hop ⟨same, before⟩
    have step := t.perform_extends op
    rw [op.origin_eq_self (running op hop), same] at step
    exact ⟨(t.perform_sheet op).trans same, before.trans step⟩
  exact extended.2

theorem mem_ids_performAll {sheet : Sheet} {saved : List Entry} {limits : Limits}
    {ops : List Operation} {id : String}
    (h : id ∈ ((restore sheet saved limits).performAll ops).2.store.ids) :
    id ∈ sheet.elements.map Element.id ∨ id ∈ saved.map Entry.id ∨
      ∃ op ∈ ops, id ∈ op.saved.map Entry.id := by
  refine (performAll_keeps (I := fun s => s.sheet = sheet ∧ ∀ id ∈ s.store.ids,
    id ∈ sheet.elements.map Element.id ∨ id ∈ saved.map Entry.id ∨
      ∃ op ∈ ops, id ∈ op.saved.map Entry.id) ?_
    ⟨rfl, fun id hid => .inr (.inl (Store.mem_ids_ofEntries.1 hid))⟩).2 id h
  rintro s op hop ⟨rfl, before⟩
  refine ⟨s.perform_sheet op, fun id hid => ?_⟩
  rcases (s.perform_extends op).fresh id hid with old | known
  · rcases op.mem_ids_origin old with old | saved
    · exact before id old
    · exact .inr (.inr ⟨op, hop, saved⟩)
  · exact .inl known

/-- Every entry is one of an element or of a saved list. Operations that do not give up the
store leave every entry in its place, add entries behind all others, and do not touch those
that no element has, whether they succeed or fail. -/
theorem performAll_frame (sheet : Sheet) (saved : List Entry) (limits : Limits)
    (ops : List Operation) :
    let s := ((restore sheet saved limits).performAll ops).2
    (∀ id ∈ s.store.ids, id ∈ sheet.elements.map Element.id ∨ id ∈ saved.map Entry.id ∨
      ∃ op ∈ ops, id ∈ op.saved.map Entry.id) ∧
    ∀ more, (∀ op ∈ more, op.restarts = false) →
      s.store.ids <+: (s.performAll more).2.store.ids ∧
        ∀ (i : Nat) (e : Entry), s.store.entries[i]? = some e →
          e.id ∉ sheet.elements.map Element.id →
          (s.performAll more).2.store.entries[i]? = some e := by
  intro s
  refine ⟨fun id hid => mem_ids_performAll hid, fun more running => ?_⟩
  have extended : s.store.Extends _ _ := performAll_extends running
  rw [show s.sheet = sheet from performAll_sheet _ ops] at extended
  exact ⟨extended.ids, extended.kept⟩

def halfway : Sheet where
  name := "halfway"
  version := ⟨1, 0, 0⟩
  ruleSets := some [⟨"default", [], none, none⟩]
  elements := [
    ⟨"a", .string, ⟨0.0, 0.0⟩, ⟨0.0, 0.0⟩, none,
      [("default", "updateState('a', \x7b value: 'x' \x7d)")]⟩,
    ⟨"b", .string, ⟨0.0, 0.0⟩, ⟨0.0, 0.0⟩, none, [("default", "missing")]⟩]
  resources := none

def orphans : List Entry := [⟨"c", some (.bool true), none⟩]

theorem performAll_frame_halfway :
    let s := restore halfway orphans .default
    (s.perform (.select "default")).1.isOk = false ∧
      (s.perform (.select "default")).2.store.ids = ["c", "a"] ∧
      (s.performAll [.select "default"]).2.store.entries[0]? =
        some ⟨"c", some (.bool true), none⟩ := by
  refine ⟨by decide +kernel, by decide +kernel, ?_⟩
  have frame := performAll_frame halfway orphans .default []
  dsimp only [performAll] at frame
  exact (frame.2 [.select "default"] (by decide)).2 0 ⟨"c", some (.bool true), none⟩ rfl (by decide)

end Session

end ScoreSheet
