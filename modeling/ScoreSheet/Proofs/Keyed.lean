import ScoreSheet.Keyed
set_option autoImplicit false

namespace ScoreSheet.Keyed

variable {α : Type}

def Ascending (entries : Keyed α) : Prop := entries.Pairwise fun e f => e.1 < f.1

theorem mem_insert {name : String} {x : α} {entries : Keyed α} {e : String × α}
    (h : e ∈ insert name x entries) : e = (name, x) ∨ e ∈ entries := by
  induction entries with
  | nil => exact .inl (List.mem_singleton.1 h)
  | cons f rest ih =>
    unfold insert at h
    split at h
    · rename_i same
      exact (List.mem_cons.1 h).imp (fun he => same ▸ he) (List.mem_cons_of_mem _)
    split at h
    · exact List.mem_cons.1 h
    · rcases List.mem_cons.1 h with rfl | h
      · exact .inr List.mem_cons_self
      · exact (ih h).imp_right (List.mem_cons_of_mem _)

theorem insert_ascending {entries : Keyed α} (h : Ascending entries) (name : String) (x : α) :
    Ascending (insert name x entries) := by
  induction entries with
  | nil => exact List.pairwise_singleton _ _
  | cons f rest ih =>
    obtain ⟨first, others⟩ := List.pairwise_cons.1 h
    unfold insert
    split
    · exact List.pairwise_cons.2 ⟨first, others⟩
    rename_i other
    split
    · rename_i less
      refine List.pairwise_cons.2 ⟨fun e he => ?_, h⟩
      rcases List.mem_cons.1 he with rfl | he
      · exact less
      · exact String.lt_trans less (first e he)
    · rename_i not_less
      have greater : f.1 < name :=
        Std.lt_of_le_of_ne (String.not_lt.1 not_less) (Ne.symm other)
      refine List.pairwise_cons.2 ⟨fun e he => ?_, ih others⟩
      rcases mem_insert he with rfl | he
      · exact greater
      · exact first e he

theorem ofList_ascending (entries : List (String × α)) : Ascending (ofList entries) := by
  have fold (sorted : Keyed α) (h : Ascending sorted) :
      Ascending (entries.foldl (fun sorted e => insert e.1 e.2 sorted) sorted) := by
    induction entries generalizing sorted with
    | nil => exact h
    | cons e rest ih => exact ih _ (insert_ascending h e.1 e.2)
  exact fold [] .nil

theorem insert_behind {name : String} {entries : Keyed α} (h : ∀ e ∈ entries, e.1 < name)
    (x : α) : insert name x entries = entries ++ [(name, x)] := by
  induction entries with
  | nil => rfl
  | cons f rest ih =>
    obtain ⟨less, others⟩ := List.forall_mem_cons.1 h
    have other : name ≠ f.1 := fun same => String.lt_irrefl _ (same ▸ less)
    rw [insert, if_neg other, if_neg (String.lt_asymm less), ih others, List.cons_append]

theorem ofList_of_ascending {entries : Keyed α} (h : Ascending entries) :
    ofList entries = entries := by
  have fold (rest sorted : Keyed α) (h : Ascending (sorted ++ rest)) :
      rest.foldl (fun sorted e => insert e.1 e.2 sorted) sorted = sorted ++ rest := by
    induction rest generalizing sorted with
    | nil => exact (List.append_nil sorted).symm
    | cons e rest ih =>
      have behind : ∀ f ∈ sorted, f.1 < e.1 := fun f hf =>
        (List.pairwise_append.1 h).2.2 f hf e List.mem_cons_self
      rw [List.append_cons] at h
      rw [List.foldl_cons, insert_behind behind, List.append_cons sorted e rest]
      exact ih _ h
  exact fold entries [] h

theorem Ascending.nodup {entries : Keyed α} (h : Ascending entries) :
    (entries.map Prod.fst).Nodup := by
  refine List.pairwise_map.2 (h.imp fun less same => ?_)
  exact String.lt_irrefl _ (same ▸ less)

theorem get?_cons (e : String × α) (rest : Keyed α) (name : String) :
    get? (e :: rest) name = if name = e.1 then some e.2 else get? rest name := by
  rw [get?, List.lookup_cons]
  by_cases same : name = e.1
  · rw [if_pos same, beq_iff_eq.2 same]
  · rw [if_neg same, beq_eq_false_iff_ne.2 same, get?]

theorem get?_insert (entries : Keyed α) (name other : String) (x : α) :
    get? (insert name x entries) other = if other = name then some x else get? entries other := by
  induction entries with
  | nil => exact get?_cons (name, x) [] other
  | cons e rest ih =>
    unfold insert
    split
    · rename_i same
      rw [get?_cons, get?_cons, same]
      split <;> rfl
    split
    · exact get?_cons (name, x) (e :: rest) other
    · rename_i distinct _
      rw [get?_cons, get?_cons, ih]
      by_cases found : other = e.1
      · rw [if_pos found, if_pos found, if_neg fun same => distinct (same.symm.trans found)]
      · rw [if_neg found, if_neg found]

theorem get?_eq_none {entries : Keyed α} {name : String} (h : ∀ e ∈ entries, name < e.1) :
    get? entries name = none := by
  induction entries with
  | nil => rfl
  | cons e rest ih =>
    obtain ⟨less, others⟩ := List.forall_mem_cons.1 h
    rw [get?_cons, if_neg fun same => String.lt_irrefl _ (same ▸ less), ih others]

theorem mem_of_get? {entries : Keyed α} {name : String} {x : α}
    (h : get? entries name = some x) : (name, x) ∈ entries := by
  induction entries with
  | nil => cases h
  | cons e rest ih =>
    rw [get?_cons] at h
    split at h
    · rename_i here
      rw [here, ← Option.some.inj h]
      exact List.mem_cons_self
    · exact List.mem_cons_of_mem _ (ih h)

theorem get?_ne_none_of_cons {e : String × α} {rest : Keyed α} : get? (e :: rest) e.1 ≠ none := by
  rw [get?_cons, if_pos rfl]
  exact Option.some_ne_none _

/-- The first names of two lists with the same entries are the same. -/
theorem head_not_lt {e f : String × α} {a b : Keyed α} (hb : Ascending (f :: b))
    (same : get? (e :: a) e.1 = get? (f :: b) e.1) : ¬ e.1 < f.1 := by
  intro less
  obtain ⟨first, _⟩ := List.pairwise_cons.1 hb
  refine get?_ne_none_of_cons (same.trans (get?_eq_none ?_))
  exact List.forall_mem_cons.2 ⟨less, fun g hg => String.lt_trans less (first g hg)⟩

theorem Ascending.ext {a b : Keyed α} (ha : Ascending a) (hb : Ascending b)
    (same : ∀ name, get? a name = get? b name) : a = b := by
  induction a generalizing b with
  | nil =>
    cases b with
    | nil => rfl
    | cons f b => exact absurd (same f.1).symm get?_ne_none_of_cons
  | cons e a ih =>
    cases b with
    | nil => exact absurd (same e.1) get?_ne_none_of_cons
    | cons f b =>
      have name : e.1 = f.1 := String.le_antisymm
        (String.not_lt.1 (head_not_lt ha (same f.1).symm))
        (String.not_lt.1 (head_not_lt hb (same e.1)))
      have content : e.2 = f.2 := by
        have first := same e.1
        rw [get?_cons, get?_cons, if_pos rfl, if_pos name] at first
        exact Option.some.inj first
      obtain ⟨behind, ha⟩ := List.pairwise_cons.1 ha
      obtain ⟨behind', hb⟩ := List.pairwise_cons.1 hb
      rw [Prod.ext name content, ih ha hb fun other => ?_]
      by_cases here : other = e.1
      · rw [here, get?_eq_none behind, name, get?_eq_none behind']
      · have rest := same other
        rwa [get?_cons, get?_cons, if_neg here, if_neg (name ▸ here)] at rest

def insertNew (name : String) (x : α) (entries : Keyed α) : Keyed α :=
  if (get? entries name).isSome then entries else insert name x entries

theorem get?_foldl_insert (entries : List (String × α)) (sorted : Keyed α) (name : String) :
    get? (entries.foldl (fun sorted e => insert e.1 e.2 sorted) sorted) name =
      (get? (ofList entries) name).or (get? sorted name) := by
  induction entries generalizing sorted with
  | nil => rfl
  | cons e rest ih =>
    have all : get? (ofList (e :: rest)) name =
        (get? (ofList rest) name).or (get? (insert e.1 e.2 []) name) := ih _
    rw [List.foldl_cons, ih, all, Option.or_assoc, get?_insert, get?_insert]
    by_cases here : name = e.1
    · rw [if_pos here, if_pos here]
      rfl
    · rw [if_neg here, if_neg here]
      rfl

theorem get?_insertNew (name other : String) (x : α) (entries : Keyed α) :
    get? (insertNew name x entries) other =
      (get? entries other).or (if other = name then some x else none) := by
  unfold insertNew
  split
  · rename_i present
    by_cases same : other = name
    · obtain ⟨y, found⟩ := Option.isSome_iff_exists.1 present
      rw [same, found]
      rfl
    · rw [if_neg same, Option.or_none]
  · rename_i absent
    rw [get?_insert]
    by_cases same : other = name
    · rw [if_pos same, if_pos same, same, Option.not_isSome_iff_eq_none.1 absent]
      rfl
    · rw [if_neg same, if_neg same, Option.or_none]

/-- An entry in front of others counts unless one of them has its name. -/
theorem ofList_cons (e : String × α) (rest : List (String × α)) :
    ofList (e :: rest) = insertNew e.1 e.2 (ofList rest) := by
  have ascending : Ascending (insertNew e.1 e.2 (ofList rest)) := by
    unfold insertNew
    split
    · exact ofList_ascending rest
    · exact insert_ascending (ofList_ascending rest) _ _
  refine Ascending.ext (ofList_ascending _) ascending fun name => ?_
  rw [get?_insertNew]
  refine (get?_foldl_insert rest (insert e.1 e.2 []) name).trans ?_
  rw [get?_insert]
  rfl

section Values
variable {β : Type} (g : α → β)

def mapValues (entries : Keyed α) : Keyed β := entries.map fun e => (e.1, g e.2)

theorem mapValues_cons (e : String × α) (rest : Keyed α) :
    mapValues g (e :: rest) = (e.1, g e.2) :: mapValues g rest := rfl

theorem get?_mapValues (entries : Keyed α) (name : String) :
    get? (mapValues g entries) name = (get? entries name).map g := by
  induction entries with
  | nil => rfl
  | cons e rest ih =>
    rw [mapValues_cons, get?_cons, get?_cons, ih]
    split <;> rfl

theorem mapValues_insert (name : String) (x : α) (entries : Keyed α) :
    mapValues g (insert name x entries) = insert name (g x) (mapValues g entries) := by
  induction entries with
  | nil => rfl
  | cons e rest ih =>
    rw [mapValues_cons, insert, insert]
    split
    · rfl
    split
    · rfl
    · rw [mapValues_cons, ih]

theorem mapValues_ofList (entries : List (String × α)) :
    mapValues g (ofList entries) = ofList (mapValues g entries) := by
  have fold (sorted : Keyed α) :
      mapValues g (entries.foldl (fun sorted e => insert e.1 e.2 sorted) sorted) =
        (mapValues g entries).foldl (fun sorted e => insert e.1 e.2 sorted)
          (mapValues g sorted) := by
    induction entries generalizing sorted with
    | nil => rfl
    | cons e rest ih =>
      rw [List.foldl_cons, ih, mapValues_insert]
      rfl
  exact fold []

end Values

end ScoreSheet.Keyed
