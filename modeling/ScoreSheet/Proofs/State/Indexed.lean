import ScoreSheet.Proofs.Keyed
import ScoreSheet.Proofs.State.Patched
import ScoreSheet.State.Indexed
set_option autoImplicit false

/-! The two parts of an indexed store fit if the ids are distinct and the index has exactly
the places of the entries. Every operation keeps them so, and then does to the entries
what it does to a store that is searched from the front. -/
namespace ScoreSheet.IndexedStore

def ids (s : IndexedStore) : List String := s.entries.map Entry.id

def toStore (s : IndexedStore) : Store := ⟨s.entries⟩

structure Sound (s : IndexedStore) : Prop where
  distinct : s.ids.Nodup
  ascending : Keyed.Ascending s.index
  places : ∀ id i, s.place? id = some i ↔ s.ids[i]? = some id

namespace Sound
variable {s t : IndexedStore} {e : Entry} {id : String} {p : Patch}

theorem empty : IndexedStore.empty.Sound where
  distinct := .nil
  ascending := .nil
  places _ _ := iff_of_false (fun h => nomatch h) (fun h => nomatch h)

theorem replace (h : s.Sound) {i : Nat} (same : s.ids[i]? = some e.id) :
    (s.replace i e).Sound := by
  have ids : (s.replace i e).ids = s.ids := by
    obtain ⟨_, he⟩ := List.getElem?_eq_some_iff.1 same
    rw [IndexedStore.ids, IndexedStore.replace, List.map_set, ← he]
    exact List.set_getElem_self _
  constructor
  case distinct => exact ids ▸ h.distinct
  case ascending => exact h.ascending
  case places => exact fun id j => ids ▸ h.places id j

theorem place_lt (h : s.Sound) {i : Nat} (found : s.place? id = some i) :
    i < s.entries.length := by
  obtain ⟨inside, _⟩ := List.getElem?_eq_some_iff.1 ((h.places id i).1 found)
  rwa [ids, List.length_map] at inside

theorem place?_eq_none (h : s.Sound) : s.place? id = none ↔ id ∉ s.ids := by
  constructor
  · intro absent known
    obtain ⟨i, hi⟩ := List.getElem?_of_mem known
    cases absent.symm.trans ((h.places id i).2 hi)
  · intro fresh
    refine Option.eq_none_iff_forall_ne_some.2 fun i found => fresh ?_
    exact List.mem_of_getElem? ((h.places id i).1 found)

theorem append (h : s.Sound) (absent : s.place? e.id = none) : (s.append e).Sound := by
  have ids : (s.append e).ids = s.ids ++ [e.id] := List.map_append
  have length : s.ids.length = s.entries.length := List.length_map _
  constructor
  case distinct =>
    rw [ids, List.nodup_append]
    refine ⟨h.distinct, List.pairwise_singleton _ _, fun id known other hother same => ?_⟩
    exact h.place?_eq_none.1 absent (List.mem_singleton.1 hother ▸ same ▸ known)
  case ascending => exact Keyed.insert_ascending h.ascending _ _
  case places =>
    intro id i
    have place : (s.append e).place? id =
        if id = e.id then some s.entries.length else s.place? id := Keyed.get?_insert _ _ _ _
    rw [place, ids]
    -- The places of the entries there were, that of the new one, and those behind it.
    rcases Nat.lt_trichotomy i s.ids.length with inside | rfl | outside
    · rw [List.getElem?_append_left inside, ← h.places id i]
      split
      · rename_i same
        refine iff_of_false (fun last => ?_) fun found => ?_
        · cases last
          omega
        · cases absent.symm.trans (same ▸ found)
      · rfl
    · rw [List.getElem?_concat_length, Option.some_inj, length]
      split
      · rename_i same
        exact iff_of_true rfl same.symm
      · rename_i other
        refine iff_of_false (fun found => ?_) (Ne.symm other)
        exact Nat.lt_irrefl _ (h.place_lt found)
    · have behind : ¬ i < s.entries.length := by omega
      rw [List.getElem?_eq_none (by rw [List.length_append, List.length_singleton]; omega)]
      refine iff_of_false (fun found => ?_) (Option.some_ne_none _ ·.symm)
      split at found
      · cases found
        omega
      · exact behind (h.place_lt found)

theorem locate (h : s.Sound) (id : String) :
    (s.place? id = none ∧ ∀ e ∈ s.entries, e.id ≠ id) ∨ ∃ before e after,
      s.entries = before ++ e :: after ∧ e.id = id ∧ (∀ f ∈ before, f.id ≠ id) ∧
        s.place? id = some before.length ∧ s.entries[before.length]? = some e := by
  rcases Store.locate id s.entries with absent | ⟨before, e, after, hs, here, absent⟩
  · refine .inl ⟨h.place?_eq_none.2 fun known => ?_, absent⟩
    obtain ⟨e, he, same⟩ := List.mem_map.1 known
    exact absent e he same
  · have found : s.entries[before.length]? = some e := by
      rw [hs, List.getElem?_append_right (Nat.le_refl _), Nat.sub_self]
      rfl
    refine .inr ⟨before, e, after, hs, here, absent, (h.places id _).2 ?_, found⟩
    rw [ids, List.getElem?_map, found, Option.map_some, here]

theorem get?_toStore (h : s.Sound) (id : String) : s.toStore.get? id = s.get? id := by
  unfold IndexedStore.get? Store.get? toStore
  rcases h.locate id with ⟨place, absent⟩ | ⟨before, e, after, hs, here, absent, place, found⟩
  · rw [place, Store.find?_absent absent]
    rfl
  · rw [place, Option.bind_some, found, hs, Store.find?_middle absent here]

theorem putEntry (h : s.Sound) (e : Entry) :
    (s.putEntry e).Sound ∧ (s.putEntry e).entries = Store.putEntry e s.entries := by
  unfold IndexedStore.putEntry
  rcases h.locate e.id with ⟨place, absent⟩ | ⟨before, f, after, hs, here, absent, place, found⟩
  · rw [place]
    exact ⟨h.append place, (Store.putEntry_absent absent).symm⟩
  · rw [place]
    refine ⟨h.replace ((h.places _ _).1 place), ?_⟩
    rw [hs, Store.putEntry_middle absent here]
    change s.entries.set before.length e = _
    rw [hs, List.set_append_right _ _ (Nat.le_refl _), Nat.sub_self, List.set_cons_zero]

/-- Applying a patch keeps the parts together, and needs no search for what a search
would find. -/
theorem apply (h : s.Sound) (id : String) (p : Patch) :
    (s.apply id p).1.Sound ∧
      ((s.apply id p).1.toStore, (s.apply id p).2) = s.toStore.apply id p := by
  unfold IndexedStore.apply Store.apply toStore
  rcases h.locate id with ⟨place, absent⟩ | ⟨before, e, after, hs, here, absent, place, found⟩
  · rw [place, Store.patchEntries_absent absent]
    cases p.hasContent with
    | true => exact ⟨h.append place, rfl⟩
    | false => exact ⟨h, rfl⟩
  · simp only [place, found]
    refine ⟨h.replace (e := p.update e) ?_, ?_⟩
    · exact ((h.places _ _).1 place).trans (congrArg some here.symm)
    · rw [hs, Store.patchEntries_middle absent here]
      change ((⟨s.entries.set before.length (p.update e)⟩ : Store), p.changes e) = _
      rw [hs, List.set_append_right _ _ (Nat.le_refl _), Nat.sub_self, List.set_cons_zero]

/-- The index is determined by the entries. -/
theorem ext (hs : s.Sound) (ht : t.Sound) (same : s.entries = t.entries) : s = t := by
  have index : s.index = t.index := by
    refine hs.ascending.ext ht.ascending fun id => ?_
    refine Option.ext fun i => (hs.places id i).trans (Iff.trans ?_ (ht.places id i).symm)
    rw [ids, ids, same]
  cases s
  cases t
  cases same
  cases index
  rfl

end Sound

section Store
variable {s : IndexedStore}

theorem ofEntries_sound (entries : List Entry) :
    (ofEntries entries).Sound ∧ (ofEntries entries).toStore = Store.ofEntries entries := by
  induction entries using List.reverseRecOn with
  | nil => exact ⟨.empty, rfl⟩
  | append_singleton entries e ih =>
    obtain ⟨sound, same⟩ := ih
    obtain ⟨sound', put⟩ := sound.putEntry e
    rw [ofEntries, List.foldl_append, Store.ofEntries_concat, ← same]
    exact ⟨sound', congrArg Store.mk put⟩

/-- Saving the entries and restoring them gives the store back. -/
theorem Sound.ofEntries_entries (h : s.Sound) : ofEntries s.entries = s := by
  obtain ⟨sound, same⟩ := ofEntries_sound s.entries
  refine sound.ext h ?_
  rw [Store.ofEntries_of_nodup h.distinct] at same
  exact congrArg Store.entries same

theorem Sound.setValue_eq_apply (h : s.Sound) (id : String) (v : Option Datum) :
    s.setValue id v = s.apply id ⟨some v, none⟩ := by
  unfold setValue
  split
  · rename_i guard
    have plain : s.toStore.setValue id v = (s.toStore, false) := by
      refine if_pos ?_
      rw [Store.value?, h.get?_toStore]
      exact guard
    obtain ⟨sound, same⟩ := h.apply id ⟨some v, none⟩
    rw [Store.setValue_eq_apply, ← same] at plain
    obtain ⟨kept, unchanged⟩ := Prod.mk.inj plain
    exact Prod.ext (sound.ext h (congrArg Store.entries kept)).symm unchanged.symm
  · rfl

end Store

inductive Operation where
  | restore (entries : List Entry)
  | patch (id : String) (p : Patch)
  | set (id : String) (v : Option Datum)
  | clear

def perform (s : IndexedStore) : Operation → IndexedStore
  | .restore entries => ofEntries entries
  | .patch id p => (s.apply id p).1
  | .set id v => (s.setValue id v).1
  | .clear => .empty

def performAll (s : IndexedStore) (operations : List Operation) : IndexedStore :=
  operations.foldl perform s

def Operation.search (s : Store) : Operation → Store
  | .restore entries => .ofEntries entries
  | .patch id p => (s.apply id p).1
  | .set id v => (s.setValue id v).1
  | .clear => .empty

variable {s : IndexedStore}

theorem Sound.perform (h : s.Sound) (operation : Operation) :
    (s.perform operation).Sound ∧
      (s.perform operation).toStore = Operation.search s.toStore operation := by
  cases operation with
  | restore entries => exact ofEntries_sound entries
  | patch id p =>
    obtain ⟨sound, same⟩ := h.apply id p
    exact ⟨sound, congrArg Prod.fst same⟩
  | set id v =>
    obtain ⟨sound, same⟩ := h.apply id ⟨some v, none⟩
    rw [IndexedStore.perform, h.setValue_eq_apply]
    exact ⟨sound, (congrArg Prod.fst same).trans
      (congrArg Prod.fst (s.toStore.setValue_eq_apply id v)).symm⟩
  | clear => exact ⟨.empty, rfl⟩

theorem Sound.performAll (h : s.Sound) (operations : List Operation) :
    (s.performAll operations).Sound ∧
      (s.performAll operations).toStore = operations.foldl Operation.search s.toStore := by
  induction operations generalizing s with
  | nil => exact ⟨h, rfl⟩
  | cons operation operations ih =>
    obtain ⟨sound, same⟩ := h.perform operation
    rw [List.foldl_cons, ← same]
    exact ih sound

structure OrderedMap (s : IndexedStore) : Prop where
  distinct : s.ids.Nodup
  indexed : ∀ id i, s.place? id = some i ↔ s.ids[i]? = some id
  found : ∀ id e, s.get? id = some e ↔ e ∈ s.entries ∧ e.id = id
  patched : ∀ id p, Patched id p s.entries (s.apply id p).1.entries (s.apply id p).2
  repeated : ∀ id p, p.hasNaN = false → ((s.apply id p).1.apply id p).2 = false
  value_set : ∀ id v, s.setValue id v = s.apply id ⟨some v, none⟩
  rebuilt : ofEntries s.entries = s

theorem Sound.orderedMap (h : s.Sound) : s.OrderedMap where
  distinct := h.distinct
  indexed := h.places
  found id e := by
    rw [← h.get?_toStore]
    exact Store.get?_eq_some (s := s.toStore) h.distinct
  patched id p := by
    obtain ⟨_, same⟩ := h.apply id p
    have patched : Patched id p s.entries (s.toStore.apply id p).1.entries
        (s.toStore.apply id p).2 := by
      cases present : s.toStore.get? id with
      | none => exact Store.patched_absent (s := s.toStore) present
      | some e => exact Store.patched_present (s := s.toStore) h.distinct present
    rwa [← same] at patched
  repeated id p number := by
    obtain ⟨sound, same⟩ := h.apply id p
    have repeated := Store.apply_twice number s.toStore id
    rwa [← same, ← (sound.apply id p).2] at repeated
  value_set := h.setValue_eq_apply
  rebuilt := h.ofEntries_entries

/-- Whatever is done with a store, beginning with the empty one, it is a map in the order
of insertion, and the same one that is made without an index. -/
theorem performAll_orderedMap (operations : List Operation) :
    (empty.performAll operations).OrderedMap ∧
      (empty.performAll operations).toStore = operations.foldl Operation.search .empty ∧
      ∀ entries : List Entry, (ofEntries entries).ids = (entries.map Entry.id).eraseDups ∧
        ∀ id, (ofEntries entries).get? id = entries.reverse.find? (·.id == id) := by
  obtain ⟨sound, same⟩ := Sound.empty.performAll operations
  refine ⟨sound.orderedMap, same, fun entries => ?_⟩
  obtain ⟨sound, same⟩ := ofEntries_sound entries
  refine ⟨?_, fun id => ?_⟩
  · exact (congrArg Store.ids same).trans (Store.ids_ofEntries entries)
  · rw [← sound.get?_toStore, same, Store.get?_ofEntries]

end ScoreSheet.IndexedStore
