import Mathlib.Data.List.Perm.Subperm
import ScoreSheet.Proofs.State.Patched
import ScoreSheet.State.Comparison
set_option autoImplicit false

namespace ScoreSheet

theorem Entry.differ_eq_false {e f : Entry} :
    e.differ f = false ↔ (e.value == f.value) = true ∧ e.isDisabled = f.isDisabled := by
  rw [differ, Bool.or_eq_false_iff, Bool.not_eq_false', bne_eq_false_iff_eq]

theorem Entry.differ_comm (e f : Entry) : e.differ f = f.differ e := by
  rw [differ, differ, BEq.comm, bne_comm]

structure Patch.Alike (p q : Patch) : Prop where
  value : (p.value == q.value) = true
  disabled : p.disabled = q.disabled

namespace Patch.Alike
variable {p q : Patch} {e f : Entry}

theorem value_join (h : p.Alike q) : (p.value.join == q.value.join) = true := by
  have same := h.value
  cases hv : p.value <;> cases hw : q.value <;> rw [hv, hw] at same
  case none.none => rfl
  case some.some => exact same
  all_goals cases same

theorem hasContent (h : p.Alike q) : p.hasContent = q.hasContent := by
  have same := h.value_join
  rw [Patch.hasContent, Patch.hasContent, h.disabled]
  cases hv : p.value.join <;> cases hw : q.value.join
  case none.none | some.some => rfl
  all_goals
    rw [hv, hw] at same
    cases same

theorem create (h : p.Alike q) (id : String) : (p.create id).differ (q.create id) = false :=
  Entry.differ_eq_false.2 ⟨h.value_join, congrArg (Option.getD · false) h.disabled⟩

theorem update_value (h : p.Alike q) (same : (e.value == f.value) = true) :
    ((p.update e).value == (q.update f).value) = true := by
  have hp := p.overrides_update e
  have hq := q.overrides_update f
  have provided := h.value
  cases hv : p.value <;> cases hw : q.value <;> rw [hv, hw] at provided
  case none.none => rwa [hp.keeps_value hv, hq.keeps_value hw]
  case some.some v w =>
    have tests : (e.value == v) = (f.value == w) :=
      (BEq.congr_left same).trans (BEq.congr_right provided)
    rw [hp.value v hv, hq.value w hw, tests]
    split
    · exact same
    · exact provided
  all_goals cases provided

theorem update_isDisabled (h : p.Alike q) (same : e.isDisabled = f.isDisabled) :
    (p.update e).isDisabled = (q.update f).isDisabled := by
  have hp := p.overrides_update e
  have hq := q.overrides_update f
  unfold Entry.isDisabled at same ⊢
  cases hd : p.disabled with
  | none => rw [hp.keeps_disabled hd, hq.keeps_disabled (h.disabled.symm.trans hd), same]
  | some d => rw [hp.disabled d hd, hq.disabled d (h.disabled.symm.trans hd)]

theorem update (h : p.Alike q) (same : e.differ f = false) :
    (p.update e).differ (q.update f) = false := by
  obtain ⟨value, disabled⟩ := Entry.differ_eq_false.1 same
  exact Entry.differ_eq_false.2 ⟨h.update_value value, h.update_isDisabled disabled⟩

theorem changes (h : p.Alike q) (e : Entry) : p.changes e = q.changes e := by
  have value : p.changesValue e = q.changesValue e := by
    have same := h.value
    unfold changesValue
    cases hv : p.value <;> cases hw : q.value
    case none.none => rfl
    case some.some v w =>
      rw [hv, hw] at same
      exact congrArg (!·) (BEq.congr_right same)
    all_goals
      rw [hv, hw] at same
      cases same
  rw [Patch.changes, Patch.changes, value, changesDisabled, changesDisabled, h.disabled]

/-- Where a patch has been applied, a like patch has nothing to change. -/
theorem applyTo_applyTo (h : p.Alike q) (number : p.hasNaN = false) (id : String)
    (before : Option Entry) : (q.applyTo id (p.applyTo id before).1).2 = false := by
  cases before with
  | none =>
    by_cases content : p.hasContent = true
    · rw [applyTo, if_pos content]
      exact (h.changes _).symm.trans (changes_create number id)
    · rw [applyTo, if_neg content, applyTo, ← h.hasContent, if_neg content]
  | some e => exact (h.changes _).symm.trans (changes_update number e)

end Patch.Alike

namespace Store

/-- Whether two stores have like entries for every id, or both none. -/
structure Alike (s t : Store) : Prop where
  distinct_left : s.ids.Nodup
  distinct_right : t.ids.Nodup
  entries : ∀ id, s.get? id = none ∧ t.get? id = none ∨
    ∃ e f, s.get? id = some e ∧ t.get? id = some f ∧ e.differ f = false

namespace Alike
variable {s t : Store} {p q : Patch}

theorem symm (h : s.Alike t) : t.Alike s where
  distinct_left := h.distinct_right
  distinct_right := h.distinct_left
  entries id := by
    rcases h.entries id with ⟨hs, ht⟩ | ⟨e, f, hs, ht, same⟩
    · exact .inl ⟨ht, hs⟩
    · exact .inr ⟨f, e, ht, hs, (Entry.differ_comm f e).trans same⟩

theorem apply (h : s.Alike t) (hp : p.Alike q) (id : String) :
    (s.apply id p).1.Alike (t.apply id q).1 where
  distinct_left := nodup_apply h.distinct_left id p
  distinct_right := nodup_apply h.distinct_right id q
  entries other := by
    rw [get?_apply, get?_apply]
    split
    · rcases h.entries id with ⟨hs, ht⟩ | ⟨e, f, hs, ht, same⟩
      · rw [hs, ht, Patch.applyTo, Patch.applyTo, hp.hasContent]
        by_cases content : q.hasContent = true
        · rw [if_pos content, if_pos content]
          exact .inr ⟨_, _, rfl, rfl, hp.create id⟩
        · rw [if_neg content, if_neg content]
          exact .inl ⟨rfl, rfl⟩
      · rw [hs, ht]
        exact .inr ⟨_, _, rfl, rfl, hp.update same⟩
    · exact h.entries other

theorem mem_ids (h : s.Alike t) (id : String) : id ∈ s.ids ↔ id ∈ t.ids := by
  rw [← not_iff_not, ← get?_eq_none_iff_ids, ← get?_eq_none_iff_ids]
  rcases h.entries id with ⟨hs, ht⟩ | ⟨e, f, hs, ht, -⟩
  · rw [hs, ht]
  · rw [hs, ht]
    exact iff_of_false (Option.some_ne_none e) (Option.some_ne_none f)

end Alike

/-- With distinct ids, the comparison of states finds out whether stores are alike. -/
theorem statesDiffer_eq_false {s t : Store} (hs : s.ids.Nodup) (ht : t.ids.Nodup) :
    statesDiffer s.entries t.entries = false ↔ s.Alike t := by
  unfold statesDiffer
  rw [ofEntries_of_nodup hs, ofEntries_of_nodup ht, Bool.or_eq_false_iff, bne_eq_false_iff_eq,
    List.any_eq_false]
  constructor
  · rintro ⟨length, same⟩
    refine ⟨hs, ht, fun id => ?_⟩
    replace same (e : Entry) (he : e ∈ s.entries) :
        ∃ f, t.get? e.id = some f ∧ e.differ f = false := by
      have h := same e he
      cases hf : t.get? e.id with
      | none =>
        rw [hf] at h
        exact absurd rfl h
      | some f =>
        rw [hf] at h
        exact ⟨f, rfl, Bool.eq_false_iff.2 h⟩
    have known : s.ids ⊆ t.ids := fun id hid => by
      obtain ⟨e, he, rfl⟩ := List.mem_map.1 hid
      obtain ⟨f, hf, -⟩ := same e he
      exact Decidable.not_not.1 fun fresh =>
        Option.some_ne_none f (hf.symm.trans (get?_eq_none_iff_ids.2 fresh))
    have perm : s.ids.Perm t.ids := by
      refine (List.subperm_of_subset hs known).perm_of_length_le ?_
      rw [ids, ids, List.length_map, List.length_map]
      exact Nat.le_of_eq length.symm
    cases found : s.get? id with
    | none =>
      refine .inl ⟨rfl, get?_eq_none_iff_ids.2 fun hid => ?_⟩
      exact get?_eq_none_iff_ids.1 found (perm.mem_iff.2 hid)
    | some e =>
      obtain ⟨he, rfl⟩ := (get?_eq_some hs).1 found
      obtain ⟨f, hf, like⟩ := same e he
      exact .inr ⟨e, f, rfl, hf, like⟩
  · intro h
    constructor
    · have perm := (List.perm_ext_iff_of_nodup hs ht).2 h.mem_ids
      simpa only [ids, List.length_map] using perm.length_eq
    · intro e he
      have found : s.get? e.id = some e := (get?_eq_some hs).2 ⟨he, rfl⟩
      rcases h.entries e.id with ⟨absent, -⟩ | ⟨e', f, hs', ht', like⟩
      · cases absent.symm.trans found
      · cases hs'.symm.trans found
        rw [ht']
        exact Bool.eq_false_iff.1 like

end Store

end ScoreSheet
