import Mathlib.Data.List.Induction
import ScoreSheet.Proofs.State.Patch
set_option autoImplicit false

namespace ScoreSheet

/-- What a patch makes of what there is for an id, and whether that is a change. -/
def Patch.applyTo (p : Patch) (id : String) : Option Entry → Option Entry × Bool
  | none => if p.hasContent then (some (p.create id), true) else (none, false)
  | some e => (some (p.update e), p.changes e)

namespace Store

def ids (s : Store) : List String := s.entries.map Entry.id

section Entries
variable {entries before after : List Entry} {e : Entry} {id other : String}

/-- Either no entry has the id, or there is a first one. -/
theorem locate (id : String) (entries : List Entry) :
    (∀ e ∈ entries, e.id ≠ id) ∨ ∃ before e after,
      entries = before ++ e :: after ∧ e.id = id ∧ ∀ f ∈ before, f.id ≠ id := by
  induction entries with
  | nil => exact .inl (List.forall_mem_nil _)
  | cons f rest ih =>
    by_cases here : f.id = id
    · exact .inr ⟨[], f, rest, rfl, here, List.forall_mem_nil _⟩
    rcases ih with absent | ⟨before, e, after, rfl, he, absent⟩
    · exact .inl (List.forall_mem_cons.2 ⟨here, absent⟩)
    · exact .inr ⟨f :: before, e, after, rfl, he, List.forall_mem_cons.2 ⟨here, absent⟩⟩

theorem find?_cons (e : Entry) (entries : List Entry) (id : String) :
    (e :: entries).find? (·.id == id) =
      if e.id = id then some e else entries.find? (·.id == id) := by
  rw [List.find?_cons]
  by_cases here : e.id = id
  · rw [if_pos here, beq_iff_eq.2 here]
  · rw [if_neg here, beq_eq_false_iff_ne.2 here]

theorem find?_absent (absent : ∀ e ∈ entries, e.id ≠ id) :
    entries.find? (·.id == id) = none :=
  List.find?_eq_none.2 fun e he => by simpa using absent e he

theorem find?_middle (absent : ∀ f ∈ before, f.id ≠ id) (here : e.id = id) :
    (before ++ e :: after).find? (·.id == id) = some e := by
  rw [List.find?_append, find?_absent absent, find?_cons, if_pos here, Option.none_or]

theorem find?_other (here : e.id ≠ other) :
    (before ++ e :: after).find? (·.id == other) = (before ++ after).find? (·.id == other) := by
  rw [List.find?_append, List.find?_append, find?_cons, if_neg here]

variable {p : Patch}

theorem patchEntries_absent (absent : ∀ e ∈ entries, e.id ≠ id) :
    patchEntries id p entries =
      if p.hasContent then (entries ++ [p.create id], true) else (entries, false) := by
  induction entries with
  | nil => rfl
  | cons f rest ih =>
    obtain ⟨here, absent⟩ := List.forall_mem_cons.1 absent
    rw [patchEntries, if_neg here, ih absent]
    cases p.hasContent <;> rfl

theorem patchEntries_middle (absent : ∀ f ∈ before, f.id ≠ id) (here : e.id = id) :
    patchEntries id p (before ++ e :: after) = (before ++ p.update e :: after, p.changes e) := by
  induction before with
  | nil => rw [List.nil_append, patchEntries, if_pos here, List.nil_append]
  | cons f before ih =>
    obtain ⟨distinct, absent⟩ := List.forall_mem_cons.1 absent
    rw [List.cons_append, patchEntries, if_neg distinct, ih absent, List.cons_append]

theorem putEntry_absent (absent : ∀ f ∈ entries, f.id ≠ e.id) :
    putEntry e entries = entries ++ [e] := by
  induction entries with
  | nil => rfl
  | cons f rest ih =>
    obtain ⟨here, absent⟩ := List.forall_mem_cons.1 absent
    rw [putEntry, if_neg here, ih absent, List.cons_append]

theorem putEntry_middle {f : Entry} (absent : ∀ g ∈ before, g.id ≠ e.id) (here : f.id = e.id) :
    putEntry e (before ++ f :: after) = before ++ e :: after := by
  induction before with
  | nil => rw [List.nil_append, putEntry, if_pos here, List.nil_append]
  | cons g before ih =>
    obtain ⟨distinct, absent⟩ := List.forall_mem_cons.1 absent
    rw [List.cons_append, putEntry, if_neg distinct, ih absent, List.cons_append]

end Entries

variable {s : Store} {id : String} {p : Patch}

theorem get?_id {e : Entry} (h : s.get? id = some e) : e.id = id := by
  simpa using List.find?_some h

theorem get?_eq_none : s.get? id = none ↔ ∀ e ∈ s.entries, e.id ≠ id := by
  unfold get?
  simp only [List.find?_eq_none, beq_iff_eq]

/-- With distinct ids, every entry is found. -/
theorem get?_eq_some (once : s.ids.Nodup) {e : Entry} :
    s.get? id = some e ↔ e ∈ s.entries ∧ e.id = id := by
  constructor
  · exact fun found => ⟨List.mem_of_find?_eq_some found, get?_id found⟩
  · rintro ⟨known, rfl⟩
    obtain ⟨before, after, he⟩ := List.append_of_mem known
    refine (congrArg (List.find? _) he).trans (find?_middle (fun f hf same => ?_) rfl)
    rw [ids, he, List.map_append, List.nodup_append] at once
    exact once.2.2 f.id (List.mem_map_of_mem hf) e.id List.mem_cons_self same

/-- What a patch does to a store without an entry of the id. -/
theorem apply_absent (absent : s.get? id = none) :
    s.apply id p = if p.hasContent then (⟨s.entries ++ [p.create id]⟩, true) else (s, false) := by
  unfold apply
  rw [patchEntries_absent (get?_eq_none.1 absent)]
  cases p.hasContent <;> rfl

/-- What it does to one with an entry. -/
theorem apply_present {e : Entry} (present : s.get? id = some e) :
    ∃ before after, s.entries = before ++ e :: after ∧ (∀ f ∈ before, f.id ≠ id) ∧
      s.apply id p = (⟨before ++ p.update e :: after⟩, p.changes e) := by
  rcases locate id s.entries with absent | ⟨before, f, after, hs, here, absent⟩
  · rw [get?_eq_none.2 absent] at present
    cases present
  · rw [get?, hs, find?_middle absent here] at present
    cases present
    refine ⟨before, after, hs, absent, ?_⟩
    unfold apply
    rw [hs, patchEntries_middle absent here]

/-- A patch changes what is found for its own id only. -/
theorem get?_apply (s : Store) (id other : String) (p : Patch) :
    (s.apply id p).1.get? other =
      if other = id then (p.applyTo id (s.get? id)).1 else s.get? other := by
  cases found : s.get? id with
  | none =>
    rw [apply_absent found, Patch.applyTo]
    by_cases content : p.hasContent = true
    · rw [if_pos content, if_pos content]
      split
      · rename_i same
        rw [same, get?, find?_middle (get?_eq_none.1 found) rfl]
      · rename_i distinct
        rw [get?, find?_other (Ne.symm distinct), List.append_nil, get?]
    · rw [if_neg content, if_neg content]
      split
      · rename_i same
        rw [same, found]
      · rfl
  | some e =>
    obtain ⟨before, after, hs, absent, patched⟩ := apply_present (p := p) found
    have here : e.id = id := get?_id found
    rw [patched, Patch.applyTo]
    split
    · rename_i same
      rw [same]
      exact find?_middle absent here
    · rename_i distinct
      rw [get?, get?, hs, find?_other (e := p.update e) fun h => distinct (h.symm.trans here),
        find?_other fun h => distinct (h.symm.trans here)]

theorem apply_changed (s : Store) (id : String) (p : Patch) :
    (s.apply id p).2 = (p.applyTo id (s.get? id)).2 := by
  cases found : s.get? id with
  | none =>
    rw [apply_absent found, Patch.applyTo]
    split <;> rfl
  | some e =>
    obtain ⟨before, after, _, _, patched⟩ := apply_present (p := p) found
    rw [patched, Patch.applyTo]

/-- Setting a value is applying a patch that provides it. -/
theorem setValue_eq_apply (s : Store) (id : String) (v : Option Datum) :
    s.setValue id v = s.apply id ⟨some v, none⟩ := by
  unfold setValue
  split
  · rename_i h
    obtain ⟨hv, absent⟩ := Bool.and_eq_true_iff.1 h
    obtain rfl := Option.isNone_iff_eq_none.1 hv
    have unchanged : (s.apply id ⟨some none, none⟩).2 = false := by
      rw [apply_changed]
      cases found : s.get? id with
      | none => rfl
      | some e =>
        rw [value?, found, Option.bind_some, Option.isNone_iff_eq_none] at absent
        rw [Patch.applyTo, Patch.changes, Patch.changesValue, Patch.changesDisabled, absent]
        rfl
    exact Prod.ext (apply_eq_self unchanged).symm unchanged.symm
  · rfl

/-- Only an id without an entry gets a new place, and that is the last one. -/
theorem ids_apply (s : Store) (id : String) (p : Patch) :
    (s.apply id p).1.ids =
      if s.get? id = none ∧ p.hasContent = true then s.ids ++ [id] else s.ids := by
  cases found : s.get? id with
  | none =>
    rw [apply_absent found]
    by_cases content : p.hasContent = true
    · rw [if_pos content, if_pos ⟨rfl, content⟩, ids, List.map_append]
      rfl
    · rw [if_neg content, if_neg fun h => content h.2]
  | some e =>
    obtain ⟨before, after, hs, _, patched⟩ := apply_present (p := p) found
    rw [patched, if_neg fun h => Option.some_ne_none e h.1, ids, ids, hs, List.map_append,
      List.map_append]
    rfl

theorem get?_eq_none_iff_ids : s.get? id = none ↔ id ∉ s.ids := by
  rw [get?_eq_none, ids, List.mem_map]
  exact ⟨fun h ⟨e, he, same⟩ => h e he same, fun h e he same => h ⟨e, he, same⟩⟩

theorem nodup_apply (once : s.ids.Nodup) (id : String) (p : Patch) :
    (s.apply id p).1.ids.Nodup := by
  rw [ids_apply]
  split
  · rename_i absent
    refine List.nodup_append.2 ⟨once, List.pairwise_singleton _ _, fun x hx y hy same => ?_⟩
    exact get?_eq_none_iff_ids.1 absent.1 (List.mem_singleton.1 hy ▸ same ▸ hx)
  · exact once

theorem ofEntries_concat (entries : List Entry) (e : Entry) :
    ofEntries (entries ++ [e]) = ⟨putEntry e (ofEntries entries).entries⟩ := by
  rw [ofEntries, List.foldl_append]
  rfl

theorem find?_putEntry (e : Entry) (entries : List Entry) (id : String) :
    (putEntry e entries).find? (·.id == id) =
      if e.id = id then some e else entries.find? (·.id == id) := by
  rcases locate e.id entries with absent | ⟨before, f, after, rfl, here, absent⟩
  · rw [putEntry_absent absent]
    split
    · rename_i same
      exact find?_middle (same ▸ absent) same
    · rename_i distinct
      rw [find?_other distinct, List.append_nil]
  · rw [putEntry_middle absent here]
    split
    · rename_i same
      exact find?_middle (same ▸ absent) same
    · rename_i distinct
      rw [find?_other distinct, find?_other (here ▸ distinct)]

/-- The last entry of an id counts. -/
theorem get?_ofEntries (entries : List Entry) (id : String) :
    (ofEntries entries).get? id = entries.reverse.find? (·.id == id) := by
  induction entries using List.reverseRecOn with
  | nil => rfl
  | append_singleton entries e ih =>
    rw [ofEntries_concat, get?, find?_putEntry, List.reverse_append, List.reverse_singleton,
      List.singleton_append, find?_cons, ← ih, get?]

theorem ids_putEntry (e : Entry) (entries : List Entry) :
    (putEntry e entries).map Entry.id =
      if e.id ∈ entries.map Entry.id then entries.map Entry.id
      else entries.map Entry.id ++ [e.id] := by
  rcases locate e.id entries with absent | ⟨before, f, after, rfl, here, absent⟩
  · have fresh : e.id ∉ entries.map Entry.id := fun h =>
      have ⟨f, hf, same⟩ := List.mem_map.1 h
      absent f hf same
    rw [putEntry_absent absent, if_neg fresh, List.map_append, List.map_singleton]
  · rw [putEntry_middle absent here, if_pos, List.map_append, List.map_append, List.map_cons,
      List.map_cons, here]
    exact List.mem_map.2 ⟨f, List.mem_append_right _ List.mem_cons_self, here⟩

/-- The ids stand in the order in which they occur first. -/
theorem ids_ofEntries (entries : List Entry) :
    (ofEntries entries).ids = (entries.map Entry.id).eraseDups := by
  induction entries using List.reverseRecOn with
  | nil => rfl
  | append_singleton entries e ih =>
    rw [ids] at ih
    rw [ofEntries_concat, ids, ids_putEntry, ih, List.map_append, List.map_singleton,
      List.eraseDups_append]
    by_cases seen : e.id ∈ entries.map Entry.id
    · rw [if_pos (List.mem_eraseDups.2 seen), List.removeAll,
        List.filter_cons_of_neg (by simpa using seen)]
      exact (List.append_nil _).symm
    · rw [if_neg fun h => seen (List.mem_eraseDups.1 h), List.removeAll,
        List.filter_cons_of_pos (by simpa using seen)]
      rfl

theorem mem_ids_ofEntries {entries : List Entry} {id : String} :
    id ∈ (ofEntries entries).ids ↔ id ∈ entries.map Entry.id := by
  rw [ids_ofEntries, List.mem_eraseDups]

theorem nodup_ofEntries (entries : List Entry) : (ofEntries entries).ids.Nodup := by
  induction entries using List.reverseRecOn with
  | nil => exact .nil
  | append_singleton entries e ih =>
    rw [ofEntries_concat, ids, ids_putEntry]
    split
    · exact ih
    · rename_i fresh
      refine List.nodup_append.2 ⟨ih, List.pairwise_singleton _ _, fun x hx y hy same => ?_⟩
      exact fresh (List.mem_singleton.1 hy ▸ same ▸ hx)

/-- A list that has every id once is the store's list already. -/
theorem ofEntries_of_nodup {entries : List Entry} (h : (entries.map Entry.id).Nodup) :
    ofEntries entries = ⟨entries⟩ := by
  induction entries using List.reverseRecOn with
  | nil => rfl
  | append_singleton entries e ih =>
    rw [List.map_append, List.nodup_append] at h
    obtain ⟨before, _, fresh⟩ := h
    rw [ofEntries_concat, ih before]
    exact congrArg Store.mk (putEntry_absent fun f hf =>
      fresh f.id (List.mem_map_of_mem hf) e.id List.mem_cons_self)

end Store

end ScoreSheet
