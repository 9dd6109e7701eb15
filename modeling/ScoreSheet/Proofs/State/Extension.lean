import ScoreSheet.Proofs.State.Lookup
set_option autoImplicit false

namespace ScoreSheet.Store

/-- Whether a store goes on from another one by entries of known ids. -/
structure Extends (known : List String) (s t : Store) : Prop where
  ids : s.ids <+: t.ids
  fresh : ∀ id ∈ t.ids, id ∈ s.ids ∨ id ∈ known
  kept : ∀ (i : Nat) (e : Entry), s.entries[i]? = some e → e.id ∉ known → t.entries[i]? = some e

namespace Extends
variable {known : List String} {s t u : Store}

theorem refl (known : List String) (s : Store) : s.Extends known s where
  ids := List.prefix_refl _
  fresh _ h := .inl h
  kept _ _ h _ := h

theorem trans (h : s.Extends known t) (h' : t.Extends known u) : s.Extends known u where
  ids := h.ids.trans h'.ids
  fresh id hu := (h'.fresh id hu).elim (h.fresh id) .inr
  kept i e hs other := h'.kept i e (h.kept i e hs other) other

end Extends

theorem getElem?_apply_other {s : Store} {i : Nat} {e : Entry} (h : s.entries[i]? = some e)
    {id : String} (other : e.id ≠ id) (p : Patch) : (s.apply id p).1.entries[i]? = some e := by
  have inside : i < s.entries.length := (List.getElem?_eq_some_iff.1 h).1
  cases found : s.get? id with
  | none =>
    rw [apply_absent found]
    split
    · rw [List.getElem?_append_left inside, h]
    · exact h
  | some f =>
    obtain ⟨before, after, hs, -, patched⟩ := apply_present (p := p) found
    rw [patched]
    rw [hs] at h
    -- The patched entry has the id, so this one stands before it or behind it.
    rcases Nat.lt_trichotomy i before.length with first | rfl | last
    · rwa [List.getElem?_append_left first] at h ⊢
    · rw [List.getElem?_append_right (Nat.le_refl _), Nat.sub_self] at h
      cases h
      exact absurd (get?_id found) other
    · rw [List.getElem?_append_right (Nat.le_of_lt last)] at h ⊢
      obtain ⟨n, hn⟩ := Nat.exists_eq_succ_of_ne_zero (Nat.sub_ne_zero_of_lt last)
      rwa [hn] at h ⊢

theorem extends_apply {known : List String} (s : Store) {id : String} (h : id ∈ known)
    (p : Patch) : s.Extends known (s.apply id p).1 where
  ids := by
    rw [ids_apply]
    split
    · exact List.prefix_append _ _
    · exact List.prefix_refl _
  fresh other := by
    rw [ids_apply]
    split
    · intro known_after
      rcases List.mem_append.1 known_after with old | new
      · exact .inl old
      · obtain rfl := List.mem_singleton.1 new
        exact .inr h
    · exact .inl
  kept i e he other := getElem?_apply_other he (fun same => other (same ▸ h)) p

end ScoreSheet.Store
