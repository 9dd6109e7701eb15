import Mathlib.Data.List.Forall2
import Mathlib.Data.List.Nodup
import ScoreSheet.Proofs.State.Contents
import ScoreSheet.Proofs.State.Likeness
import ScoreSheet.Proofs.State.Pruning
import ScoreSheet.State.View
set_option autoImplicit false

/-! The comparison of states looks at the last entry of every id. So it does not matter to it
where entries of different ids stand, and without numbers that are not numbers it is an
equivalence. States that do not differ are shown with equal contents and, if their ids are
distinct, saved with equal contents in some order. -/
namespace ScoreSheet

namespace Entry
variable {e f g : Entry}

def hasNaN (e : Entry) : Bool := e.value.any Datum.isNaN

theorem differ_self (number : e.hasNaN = false) : e.differ e = false := by
  refine differ_eq_false.2 ⟨?_, rfl⟩
  unfold hasNaN at number
  cases hv : e.value with
  | none => rfl
  | some d =>
    rw [hv] at number
    exact Datum.beq_self number

theorem differ_trans (h : e.differ f = false) (k : f.differ g = false) : e.differ g = false := by
  obtain ⟨value, disabled⟩ := differ_eq_false.1 h
  obtain ⟨value', disabled'⟩ := differ_eq_false.1 k
  exact differ_eq_false.2 ⟨BEq.trans value value', disabled.trans disabled'⟩

/-- Entries that do not differ are saved with equal contents, or both not at all. -/
theorem prune?_beq (same : e.id = f.id) (h : e.differ f = false) :
    (e.prune? == f.prune?) = true := by
  obtain ⟨value, disabled⟩ := differ_eq_false.1 h
  replace value := filter_isKept_beq value
  rw [prune?_eq, prune?_eq, same, disabled]
  dsimp only
  generalize e.value.filter Datum.isKept = v, f.value.filter Datum.isKept = w at value
  have both : v.isNone = w.isNone := by cases v <;> cases w <;> first | rfl | cases value
  rw [both]
  by_cases nothing : (w.isNone && (if f.isDisabled then some true else none).isNone) = true
  · rw [if_pos nothing, if_pos nothing]
    rfl
  · rw [if_neg nothing, if_neg nothing]
    exact beq_iff.2 ⟨rfl, value, rfl⟩

end Entry

namespace Store.Alike
variable {s t u : Store}

theorem refl (once : s.ids.Nodup) (number : ∀ e ∈ s.entries, e.hasNaN = false) : s.Alike s where
  distinct_left := once
  distinct_right := once
  entries id := by
    cases found : s.get? id with
    | none => exact .inl ⟨rfl, rfl⟩
    | some e =>
      have known : e ∈ s.entries := List.mem_of_find?_eq_some found
      exact .inr ⟨e, e, rfl, rfl, Entry.differ_self (number e known)⟩

theorem trans (h : s.Alike t) (k : t.Alike u) : s.Alike u where
  distinct_left := h.distinct_left
  distinct_right := k.distinct_right
  entries id := by
    rcases h.entries id with ⟨hs, ht⟩ | ⟨e, f, hs, ht, same⟩
    · rcases k.entries id with ⟨-, hu⟩ | ⟨f', g, ht', -, -⟩
      · exact .inl ⟨hs, hu⟩
      · cases ht.symm.trans ht'
    · rcases k.entries id with ⟨ht', -⟩ | ⟨f', g, ht', hu, same'⟩
      · cases ht.symm.trans ht'
      · cases ht.symm.trans ht'
        exact .inr ⟨e, g, hs, hu, Entry.differ_trans same same'⟩

theorem value? (h : s.Alike t) (id : String) : (s.value? id == t.value? id) = true := by
  unfold Store.value?
  rcases h.entries id with ⟨hs, ht⟩ | ⟨e, f, hs, ht, same⟩
  · rw [hs, ht]
    rfl
  · rw [hs, ht]
    exact (Entry.differ_eq_false.1 same).1

theorem isDisabled (h : s.Alike t) (id : String) : s.isDisabled id = t.isDisabled id := by
  unfold Store.isDisabled
  rcases h.entries id with ⟨hs, ht⟩ | ⟨e, f, hs, ht, same⟩
  · rw [hs, ht]
  · rw [hs, ht]
    exact (Entry.differ_eq_false.1 same).2

/-- The entries of one of two like stores, in the order of the other one. -/
theorem exists_perm (h : s.Alike t) : ∃ c : List Entry, c.Perm t.entries ∧
    List.Forall₂ (fun e f => e.id = f.id ∧ e.differ f = false) s.entries c := by
  let other (e : Entry) : Entry := (t.get? e.id).getD e
  have like (e : Entry) (he : e ∈ s.entries) :
      t.get? e.id = some (other e) ∧ e.differ (other e) = false := by
    have found : s.get? e.id = some e := (get?_eq_some h.distinct_left).2 ⟨he, rfl⟩
    rcases h.entries e.id with ⟨hs, -⟩ | ⟨e', f, hs, ht, same⟩
    · cases hs.symm.trans found
    · cases hs.symm.trans found
      have reached : other e = f := congrArg (Option.getD · e) ht
      exact ⟨reached ▸ ht, reached ▸ same⟩
  have ids : (s.entries.map other).map Entry.id = s.ids := by
    rw [List.map_map]
    exact List.map_congr_left fun e he => get?_id (like e he).1
  have once : (s.entries.map other).Nodup :=
    List.Nodup.of_map Entry.id (ids.symm ▸ h.distinct_left)
  have once' : t.entries.Nodup := List.Nodup.of_map Entry.id h.distinct_right
  refine ⟨s.entries.map other, ?_, List.forall₂_map_right_iff.2 (List.forall₂_same.2 ?_)⟩
  · refine (List.perm_ext_iff_of_nodup once once').2 fun f => ?_
    constructor
    · intro reached
      obtain ⟨e, he, rfl⟩ := List.mem_map.1 reached
      exact ((get?_eq_some h.distinct_right).1 (like e he).1).1
    · intro hf
      have found : t.get? f.id = some f := (get?_eq_some h.distinct_right).2 ⟨hf, rfl⟩
      rcases h.entries f.id with ⟨-, ht⟩ | ⟨e, f', hs, ht, -⟩
      · cases ht.symm.trans found
      · obtain ⟨he, same⟩ := (get?_eq_some h.distinct_left).1 hs
        have reached := (like e he).1
        rw [same, found] at reached
        exact List.mem_map.2 ⟨e, he, (Option.some.inj reached).symm⟩
  · exact fun e he => ⟨(get?_id (like e he).1).symm, (like e he).2⟩

end Store.Alike

/-- Lists do not differ if the stores that are restored from them are alike. -/
theorem statesDiffer_iff_alike {a b : List Entry} :
    statesDiffer a b = false ↔ (Store.ofEntries a).Alike (.ofEntries b) := by
  rw [← Store.statesDiffer_eq_false (Store.nodup_ofEntries a) (Store.nodup_ofEntries b)]
  unfold statesDiffer
  rw [Store.ofEntries_of_nodup (Store.nodup_ofEntries a),
    Store.ofEntries_of_nodup (Store.nodup_ofEntries b)]

theorem statesDiffer_self {a : List Entry} (number : ∀ e ∈ a, e.hasNaN = false) :
    statesDiffer a a = false :=
  statesDiffer_iff_alike.2 (.refl (Store.nodup_ofEntries a) fun e he =>
    number e (Store.mem_ofEntries he))

theorem statesDiffer_comm (a b : List Entry) : statesDiffer a b = statesDiffer b a := by
  rw [← Bool.not_inj_iff, Bool.eq_iff_iff, Bool.not_eq_true', Bool.not_eq_true',
    statesDiffer_iff_alike, statesDiffer_iff_alike]
  exact ⟨.symm, .symm⟩

/-- Whether the entries of each id stand in the same order in both lists. -/
def SameById (a b : List Entry) : Prop := ∀ id, a.filter (·.id == id) = b.filter (·.id == id)

/-- Of lists that have every id once, the one is any permutation of the other. -/
theorem SameById.of_perm {a b : List Entry} (once : (a.map Entry.id).Nodup) (h : a.Perm b) :
    SameById a b := by
  intro id
  have part := h.filter (·.id == id)
  have here : ∀ other ∈ (a.filter (·.id == id)).map Entry.id, other = id := by
    intro other hother
    obtain ⟨e, he, rfl⟩ := List.mem_map.1 hother
    exact eq_of_beq (List.mem_filter.1 he).2
  have single := once.sublist ((List.filter_sublist (p := (·.id == id))).map Entry.id)
  rw [List.eq_replicate_of_mem here, List.nodup_replicate, List.length_map] at single
  generalize a.filter (·.id == id) = entries at part single
  match entries, single with
  | [], _ => exact part.nil_eq
  | [e], _ => exact List.singleton_perm.1 part

theorem SameById.get? {a b : List Entry} (h : SameById a b) (id : String) :
    (Store.ofEntries a).get? id = (Store.ofEntries b).get? id := by
  rw [Store.get?_ofEntries, Store.get?_ofEntries, ← List.head?_filter, ← List.head?_filter,
    List.filter_reverse, List.filter_reverse, h id]

theorem statesDiffer_congr {a a' b b' : List Entry} (ha : SameById a a') (hb : SameById b b') :
    statesDiffer a b = statesDiffer a' b' := by
  rw [← Bool.not_inj_iff, Bool.eq_iff_iff, Bool.not_eq_true', Bool.not_eq_true',
    statesDiffer_iff_alike, statesDiffer_iff_alike]
  have same (id : String) := And.intro (ha.get? id) (hb.get? id)
  constructor
  · intro h
    refine ⟨Store.nodup_ofEntries _, Store.nodup_ofEntries _, fun id => ?_⟩
    rw [← (same id).1, ← (same id).2]
    exact h.entries id
  · intro h
    refine ⟨Store.nodup_ofEntries _, Store.nodup_ofEntries _, fun id => ?_⟩
    rw [(same id).1, (same id).2]
    exact h.entries id

instance : BEq View :=
  ⟨fun v w => v.id == w.id && v.kind == w.kind && v.value == w.value && v.disabled == w.disabled⟩

theorem beq_of_forall₂ {α : Type} [BEq α] {as bs : List α}
    (h : List.Forall₂ (fun a b => (a == b) = true) as bs) : (as == bs) = true := by
  induction h with
  | nil => rfl
  | cons same _ ih => rw [List.cons_beq_cons, same, ih, Bool.and_self]

/-- On like stores, rules see equal contents. -/
theorem Store.Alike.views {s t : Store} (h : s.Alike t) (elements : List Element) :
    (ScoreSheet.views elements s == ScoreSheet.views elements t) = true := by
  refine beq_of_forall₂ (List.forall₂_map_left_iff.2 (List.forall₂_map_right_iff.2
    (List.forall₂_same.2 fun e _ => ?_)))
  change (e.id == e.id && e.kind == e.kind && s.value? e.id == t.value? e.id &&
    s.isDisabled e.id == t.isDisabled e.id) = true
  rw [h.value? e.id, h.isDisabled e.id, beq_self_eq_true, beq_self_eq_true, beq_self_eq_true]
  rfl

theorem prune_beq {a b : List Entry}
    (h : List.Forall₂ (fun e f => e.id = f.id ∧ e.differ f = false) a b) :
    (prune a == prune b) = true := by
  unfold prune
  induction h with
  | nil => rfl
  | @cons e f _ _ same _ ih =>
    have worth := Entry.prune?_beq same.1 same.2
    cases he : e.prune? <;> cases hf : f.prune? <;> rw [he, hf] at worth
    case none.none => rwa [List.filterMap_cons_none he, List.filterMap_cons_none hf]
    case some.some e' f' =>
      rw [List.filterMap_cons_some he, List.filterMap_cons_some hf, List.cons_beq_cons, ih,
        Bool.and_true]
      exact worth
    all_goals cases worth

/-- Of like stores, equal contents are saved, in some order. -/
theorem Store.Alike.prune {s t : Store} (h : s.Alike t) :
    ∃ c : List Entry, c.Perm (ScoreSheet.prune t.entries) ∧
      (ScoreSheet.prune s.entries == c) = true := by
  obtain ⟨c, perm, like⟩ := h.exists_perm
  exact ⟨ScoreSheet.prune c, perm.filterMap _, prune_beq like⟩

end ScoreSheet
