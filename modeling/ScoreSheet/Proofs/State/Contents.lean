import ScoreSheet.Proofs.State.Lookup
set_option autoImplicit false

namespace ScoreSheet

def Datum.IsFinite (d : Datum) : Prop := ∀ x ∈ d.number?, Number.isFinite x = true

instance Datum.decidableIsFinite (d : Datum) : Decidable d.IsFinite :=
  inferInstanceAs (Decidable (∀ x ∈ d.number?, Number.isFinite x = true))

def Patch.IsFinite (p : Patch) : Prop := ∀ d ∈ p.value.join, d.IsFinite

instance Patch.decidableIsFinite (p : Patch) : Decidable p.IsFinite :=
  inferInstanceAs (Decidable (∀ d ∈ p.value.join, d.IsFinite))

def Store.Holds (P : Datum → Prop) (s : Store) : Prop := ∀ e ∈ s.entries, ∀ d ∈ e.value, P d

namespace Store
variable {P : Datum → Prop} {s : Store}

theorem holds_update {p : Patch} (hp : ∀ d ∈ p.value.join, P d) {e : Entry}
    (he : ∀ d ∈ e.value, P d) : ∀ d ∈ (p.update e).value, P d := by
  unfold Patch.update
  dsimp only
  split
  · exact hp
  · exact he

theorem Holds.apply (h : s.Holds P) {p : Patch} (hp : ∀ d ∈ p.value.join, P d) (id : String) :
    (s.apply id p).1.Holds P := by
  cases found : s.get? id with
  | none =>
    rw [apply_absent found]
    split
    · exact List.forall_mem_append.2 ⟨h, List.forall_mem_singleton.2 hp⟩
    · exact h
  | some e =>
    obtain ⟨before, after, hs, -, patched⟩ := apply_present (p := p) found
    rw [Holds, hs] at h
    obtain ⟨hb, h⟩ := List.forall_mem_append.1 h
    obtain ⟨he, ha⟩ := List.forall_mem_cons.1 h
    rw [patched]
    exact List.forall_mem_append.2 ⟨hb, List.forall_mem_cons.2 ⟨holds_update hp he, ha⟩⟩

theorem mem_putEntry {e f : Entry} {entries : List Entry} (h : f ∈ putEntry e entries) :
    f = e ∨ f ∈ entries := by
  rcases locate e.id entries with absent | ⟨before, g, after, rfl, here, absent⟩
  · rw [putEntry_absent absent] at h
    exact (List.mem_append.1 h).symm.imp_left List.mem_singleton.1
  · rw [putEntry_middle absent here] at h
    rcases List.mem_append.1 h with h | h
    · exact .inr (List.mem_append_left _ h)
    · exact (List.mem_cons.1 h).imp_right fun h =>
        List.mem_append_right _ (List.mem_cons_of_mem _ h)

/-- The entries of a restored store are entries of the saved list. -/
theorem mem_ofEntries {entries : List Entry} {e : Entry} (h : e ∈ (ofEntries entries).entries) :
    e ∈ entries := by
  induction entries using List.reverseRecOn with
  | nil => cases h
  | append_singleton entries f ih =>
    rw [ofEntries_concat] at h
    rcases mem_putEntry h with rfl | h
    · exact List.mem_append_right _ List.mem_cons_self
    · exact List.mem_append_left _ (ih h)

end Store

end ScoreSheet
