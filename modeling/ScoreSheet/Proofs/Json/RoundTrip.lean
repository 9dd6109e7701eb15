import ScoreSheet.Proofs.Json.Scalars
import ScoreSheet.Proofs.Json.Style
set_option autoImplicit false

/-! A value is read back from its text in any style when its whole numbers fit 64 bits, the
text of each other number is read as this number, no object repeats a key, and lists and
objects nest no deeper than a reader allows. -/
namespace ScoreSheet.Json

/-- Values that a text can hold, in which lists and objects nest at most `room` deep and
other numbers than whole ones are such as `ok` says. -/
inductive Fits (ok : Float → Prop) : Nat → Json → Prop
  | null (room : Nat) : Fits ok room .null
  | bool (room : Nat) (b : Bool) : Fits ok room (.bool b)
  | integer (room : Nat) {n : Int} (wide : Wide n) : Fits ok room (.integer n)
  | real (room : Nat) {x : Float} (h : ok x) : Fits ok room (.real x)
  | string (room : Nat) (s : String) : Fits ok room (.string s)
  | array {room : Nat} {items : List Json} (h : ∀ v ∈ items, Fits ok room v) :
      Fits ok (room + 1) (.array items)
  | object {room : Nat} {members : List (String × Json)}
      (distinct : (members.map Prod.fst).Nodup) (h : ∀ m ∈ members, Fits ok room m.2) :
      Fits ok (room + 1) (.object members)

mutual

def reals : Json → List Float
  | real x => [x]
  | array items => realsOfItems items
  | object members => realsOfMembers members
  | _ => []

def realsOfItems : List Json → List Float
  | [] => []
  | v :: rest => v.reals ++ realsOfItems rest

def realsOfMembers : List (String × Json) → List Float
  | [] => []
  | (_, v) :: rest => v.reals ++ realsOfMembers rest

end

theorem mem_realsOfItems {items : List Json} {v : Json} (hv : v ∈ items) {x : Float}
    (hx : x ∈ v.reals) : x ∈ realsOfItems items := by
  induction items with
  | nil => cases hv
  | cons w rest ih =>
    rw [realsOfItems, List.mem_append]
    rcases List.mem_cons.1 hv with rfl | hv
    · exact .inl hx
    · exact .inr (ih hv)

theorem mem_realsOfMembers {members : List (String × Json)} {m : String × Json}
    (hm : m ∈ members) {x : Float} (hx : x ∈ m.2.reals) : x ∈ realsOfMembers members := by
  induction members with
  | nil => cases hm
  | cons n rest ih =>
    rw [realsOfMembers, List.mem_append]
    rcases List.mem_cons.1 hm with rfl | hm
    · exact .inl hx
    · exact .inr (ih hm)

theorem Fits.imp {p q : Float → Prop} {room : Nat} {v : Json} (h : Fits p room v)
    (hr : ∀ x ∈ v.reals, p x → q x) : Fits q room v := by
  induction h with
  | null room => exact .null room
  | bool room b => exact .bool room b
  | integer room wide => exact .integer room wide
  | real room h => exact .real room (hr _ (List.mem_singleton.2 rfl) h)
  | string room s => exact .string room s
  | array h ih => exact .array fun v hv => ih v hv fun x hx => hr x (mem_realsOfItems hv hx)
  | object distinct h ih =>
    exact .object distinct fun m hm => ih m hm fun x hx => hr x (mem_realsOfMembers hm hx)

/-- The text is read as `v` in front of anything that cannot go on with a numeral. -/
def Readable (room : Nat) (text : List Char) (v : Json) : Prop :=
  ∀ rest, Delimited rest → Reads (value room) text v rest

/-! ## Spaces in front of a value -/

theorem skipSpace_skipSpaceFrom (p : Position) (text : List Char) :
    skipSpace (skipSpaceFrom p text) = skipSpaceFrom p text := by
  induction text generalizing p with
  | nil => rfl
  | cons c text ih =>
    rw [skipSpaceFrom]
    split
    · exact ih _
    · rename_i hc
      exact skipSpace_cons (Bool.not_eq_true _ ▸ hc) text p

theorem valueWith_skipSpace (inner? : Option (Read Json)) (c : Cursor) :
    valueWith inner? (skipSpace c) = valueWith inner? c := by
  unfold valueWith
  rw [show skipSpace (skipSpace c) = skipSpace c from skipSpace_skipSpaceFrom _ _]

def inner? : Nat → Option (Read Json)
  | 0 => none
  | room + 1 => some (value room)

theorem value_eq (room : Nat) : value room = valueWith (inner? room) := by
  cases room with
  | zero => rfl
  | succ room => rfl

theorem value_skipSpace (room : Nat) (c : Cursor) : value room (skipSpace c) = value room c := by
  rw [value_eq, valueWith_skipSpace]

theorem Readable.behind_gap {room : Nat} {text gap : List Char} {v : Json}
    (h : Readable room text v) (hg : ∀ c ∈ gap, isSpace c = true) :
    Readable room (gap ++ text) v := by
  intro rest hr p
  obtain ⟨q, hq⟩ := h rest hr (p.advanceAll gap)
  refine ⟨q, ?_⟩
  rw [← value_skipSpace] at hq ⊢
  rw [← hq, List.append_assoc]
  exact congrArg (value room) (skipSpaceFrom_spaces hg p (text ++ rest))

/-- No value begins with a closing bracket. -/
theorem head_of_value {room : Nat} {c : Cursor} {r : Json × Cursor} (h : value room c = .ok r) :
    ∃ x xs p, skipSpace c = ⟨x :: xs, p⟩ ∧ x ≠ ']' := by
  rw [value_eq] at h
  unfold valueWith at h
  generalize skipSpace c = c at h
  obtain ⟨text, p⟩ := c
  cases text with
  | nil => cases h
  | cons x xs =>
    refine ⟨x, xs, p, rfl, ?_⟩
    rintro rfl
    cases h

theorem delimited_cons {c : Char} (h : Number.isDigit c = false ∧ c ≠ '.' ∧ c ≠ 'e' ∧ c ≠ 'E')
    (rest : List Char) : Delimited (c :: rest) := by
  rintro _ ⟨⟩
  exact h

theorem delimited_bracket (rest : List Char) : Delimited (']' :: rest) :=
  delimited_cons (by decide) rest

theorem delimited_brace (rest : List Char) : Delimited ('\x7d' :: rest) :=
  delimited_cons (by decide) rest

theorem delimited_gap {gap : List Char} (hg : ∀ c ∈ gap, isSpace c = true) {rest : List Char}
    (h : Delimited rest) : Delimited (gap ++ rest) := by
  cases gap with
  | nil => exact h
  | cons c gap =>
    have space := hg c List.mem_cons_self
    refine delimited_cons ⟨?_, ?_, ?_, ?_⟩ _
    · exact Bool.eq_false_iff.2 fun hd => by
        rw [isSpace_digit hd] at space
        cases space
    all_goals
      rintro rfl
      cases space

/-! ## Lists -/

theorem nextItem_first {room : Nat} {c : Cursor} {r : Json × Cursor} (h : value room c = .ok r) :
    nextItem true c = .ok (some (skipSpace c)) := by
  obtain ⟨x, xs, p, hc, hx⟩ := head_of_value h
  unfold nextItem
  rw [hc]
  dsimp only
  rw [if_neg hx, if_pos rfl]

theorem nextItem_comma {room : Nat} {text : List Char} {p : Position} {r : Json × Cursor}
    (h : value room ⟨text, p.advance ','⟩ = .ok r) :
    nextItem false ⟨',' :: text, p⟩ = .ok (some (skipSpace ⟨text, p.advance ','⟩)) := by
  obtain ⟨x, xs, q, hc, hx⟩ := head_of_value h
  have behind : (⟨',' :: text, p⟩ : Cursor).drop 1 = ⟨text, p.advance ','⟩ := rfl
  unfold nextItem
  rw [skipSpace_cons (by decide)]
  dsimp only
  rw [if_neg (by decide), if_neg (by decide), if_pos rfl, behind, hc]
  dsimp only
  rw [if_neg hx]

theorem nextItem_end (isFirst : Bool) {gap : List Char} (hg : ∀ c ∈ gap, isSpace c = true)
    (rest : List Char) (p : Position) : nextItem isFirst ⟨gap ++ ']' :: rest, p⟩ = .ok none := by
  unfold nextItem
  rw [skipSpace_gap hg (by decide)]
  rfl

theorem listItems_end (read : Read Json) (fuel : Nat) (isFirst : Bool) {gap : List Char}
    (hg : ∀ c ∈ gap, isSpace c = true) (rest : List Char) :
    Reads (listItems read (fuel + 1) isFirst) (gap ++ [']']) [] rest := by
  intro p
  refine ⟨(p.advanceAll gap).advance ']', ?_⟩
  rw [listItems, List.append_assoc]
  change (nextItem isFirst ⟨gap ++ ']' :: rest, p⟩ >>= _) = _
  rw [nextItem_end isFirst hg]
  change Except.ok ([], (skipSpace ⟨gap ++ ']' :: rest, p⟩).drop 1) = _
  rw [skipSpace_gap hg (by decide)]
  rfl

/-- One item is read in front of others when the way goes on to it. -/
theorem listItems_item {room fuel : Nat} {isFirst : Bool} {c c' : Cursor} {v : Json}
    {vs : List Json} {text rest : List Char}
    (hn : nextItem isFirst c = .ok (some (skipSpace c'))) {p : Position}
    (hv : value room c' = .ok (v, ⟨text ++ rest, p⟩))
    (hs : Reads (listItems (value room) fuel false) text vs rest) :
    ∃ q, listItems (value room) (fuel + 1) isFirst c = .ok (v :: vs, ⟨rest, q⟩) := by
  obtain ⟨q, hq⟩ := hs p
  refine ⟨q, ?_⟩
  rw [listItems, hn]
  change (value room (skipSpace c') >>= _) = _
  rw [value_skipSpace, hv]
  change (listItems (value room) fuel false ⟨text ++ rest, p⟩ >>= _) = _
  rw [hq]
  rfl

section Parts
variable {gap last : List Char} {room : Nat}

/-- What stands behind a part ends a numeral. -/
theorem delimited_parts (gap : List Char) (hl : ∀ c ∈ last, isSpace c = true) {closing : Char} {rest : List Char}
    (hc : Delimited (closing :: rest)) {α : Type} (f : α → List Char) (xs : List α) :
    Delimited (xs.flatMap (fun x => ',' :: (gap ++ f x)) ++ (last ++ [closing]) ++ rest) := by
  cases xs with
  | nil =>
    rw [List.flatMap_nil, List.nil_append, List.append_assoc]
    exact delimited_gap hl hc
  | cons x xs => exact delimited_cons (by decide) _

theorem listItems_behind (hg : ∀ c ∈ gap, isSpace c = true) (hl : ∀ c ∈ last, isSpace c = true)
    {f : Json → List Char} {items : List Json} (h : ∀ v ∈ items, Readable room (f v) v)
    {fuel : Nat} (hf : items.length < fuel) (rest : List Char) :
    Reads (listItems (value room) fuel false)
      (items.flatMap (fun v => ',' :: (gap ++ f v)) ++ (last ++ [']'])) items rest := by
  induction items generalizing fuel with
  | nil =>
    obtain ⟨fuel, rfl⟩ := Nat.exists_eq_add_of_le' hf
    exact listItems_end _ _ _ hl rest
  | cons v items ih =>
    obtain ⟨fuel, rfl⟩ := Nat.exists_eq_add_of_le' (Nat.lt_of_le_of_lt (Nat.zero_le _) hf)
    obtain ⟨hv, hi⟩ := List.forall_mem_cons.1 h
    intro p
    obtain ⟨q, hq⟩ := hv.behind_gap hg _
      (delimited_parts gap hl (delimited_bracket rest) f items) (p.advance ',')
    rw [List.flatMap_cons, List.append_assoc, List.append_assoc, List.cons_append,
      ← List.append_assoc (List.flatMap _ _)]
    exact listItems_item (nextItem_comma hq) hq (ih hi (Nat.lt_of_succ_lt_succ hf))

theorem listItems_tail (st : Style) (depth : Nat) {f : Json → List Char} {items : List Json}
    (h : ∀ v ∈ items, Readable room (f v) v) {fuel : Nat} (hf : items.length < fuel)
    (rest : List Char) :
    Reads (listItems (value room) fuel true) (st.tail ']' depth (items.map f)) items rest := by
  obtain ⟨fuel, rfl⟩ := Nat.exists_eq_add_of_le' (Nat.lt_of_le_of_lt (Nat.zero_le _) hf)
  cases items with
  | nil => exact listItems_end _ _ _ (List.forall_mem_nil _) rest
  | cons v items =>
    obtain ⟨hv, hi⟩ := List.forall_mem_cons.1 h
    have others := listItems_behind (st.gap_space (depth + 1)) (st.gap_space depth) hi
      (Nat.lt_of_succ_lt_succ hf) rest
    intro p
    obtain ⟨q, hq⟩ := hv.behind_gap (st.gap_space (depth + 1)) _
      (delimited_parts _ (st.gap_space depth) (delimited_bracket rest) f items) p
    rw [List.map_cons, Style.tail, List.flatMap_map, List.append_assoc (_ ++ _)]
    exact listItems_item (nextItem_first hq) hq others

/-! ## Objects -/

theorem nextKey_first (hg : ∀ c ∈ gap, isSpace c = true) (text : List Char) (p : Position) :
    ∃ q, nextKey true ⟨gap ++ '"' :: text, p⟩ = .ok (some ⟨text, q⟩) := by
  refine ⟨(p.advanceAll gap).advance '"', ?_⟩
  unfold nextKey
  rw [skipSpace_gap hg (by decide)]
  rfl

theorem nextKey_comma (hg : ∀ c ∈ gap, isSpace c = true) (text : List Char) (p : Position) :
    ∃ q, nextKey false ⟨',' :: (gap ++ '"' :: text), p⟩ = .ok (some ⟨text, q⟩) := by
  refine ⟨((p.advance ',').advanceAll gap).advance '"', ?_⟩
  have behind : (⟨',' :: (gap ++ '"' :: text), p⟩ : Cursor).drop 1 =
      ⟨gap ++ '"' :: text, p.advance ','⟩ := rfl
  unfold nextKey
  rw [skipSpace_cons (by decide)]
  dsimp only
  rw [if_neg (by decide), if_neg (by decide), if_pos rfl, behind, skipSpace_gap hg (by decide)]
  dsimp only
  rw [if_pos rfl]
  rfl

theorem nextKey_end (isFirst : Bool) (hg : ∀ c ∈ gap, isSpace c = true) (rest : List Char)
    (p : Position) : nextKey isFirst ⟨gap ++ '\x7d' :: rest, p⟩ = .ok none := by
  unfold nextKey
  rw [skipSpace_gap hg (by decide)]
  rfl

theorem objectMembers_end (read : Read Json) (fuel : Nat) (isFirst : Bool)
    (members : List (String × Json)) (hg : ∀ c ∈ gap, isSpace c = true) (rest : List Char) :
    Reads (objectMembers read (fuel + 1) isFirst members) (gap ++ ['\x7d']) members rest := by
  intro p
  refine ⟨(p.advanceAll gap).advance '\x7d', ?_⟩
  rw [objectMembers, List.append_assoc]
  change (nextKey isFirst ⟨gap ++ '\x7d' :: rest, p⟩ >>= _) = _
  rw [nextKey_end isFirst hg]
  change Except.ok (members, (skipSpace ⟨gap ++ '\x7d' :: rest, p⟩).drop 1) = _
  rw [skipSpace_gap hg (by decide)]
  rfl

theorem colon_mark (text : List Char) (p : Position) : colon ⟨':' :: text, p⟩ =
    .ok ⟨text, p.advance ':'⟩ := by
  unfold colon
  rw [skipSpace_cons (by decide)]
  rfl

/-- One member is read in front of others when the way goes on to it. -/
theorem objectMembers_member (st : Style) {fuel : Nat} {isFirst : Bool}
    {members ms : List (String × Json)} {c : Cursor} {k : String} {v : Json}
    {text others rest : List Char} {p : Position}
    (hn : nextKey isFirst c = .ok (some ⟨st.memberTail k text ++ (others ++ rest), p⟩))
    (hv : Readable room text v) (hd : Delimited (others ++ rest))
    (hs : Reads (objectMembers (value room) fuel false (setMember k v members)) others ms rest) :
    ∃ q, objectMembers (value room) (fuel + 1) isFirst members c = .ok (ms, ⟨rest, q⟩) := by
  rw [Style.memberTail, List.append_assoc] at hn
  obtain ⟨pk, hk⟩ := stringText_quoteTail k (':' :: (st.afterColon ++ text) ++ (others ++ rest)) p
  obtain ⟨pv, hpv⟩ := hv.behind_gap st.afterColon_space _ hd (pk.advance ':')
  obtain ⟨q, hq⟩ := hs pv
  refine ⟨q, ?_⟩
  rw [objectMembers, hn]
  change (stringText ⟨quoteTail k ++ (':' :: (st.afterColon ++ text) ++ (others ++ rest)), p⟩ >>= _)
    = _
  rw [hk]
  dsimp only [bind, Except.bind, List.cons_append]
  rw [colon_mark]
  dsimp only
  rw [hpv]
  exact hq

theorem setMember_fresh {k : String} {members : List (String × Json)}
    (h : k ∉ members.map Prod.fst) (v : Json) : setMember k v members = members ++ [(k, v)] := by
  induction members with
  | nil => rfl
  | cons m members ih =>
    obtain ⟨hm, h⟩ := not_or.1 (mt List.mem_cons.2 h)
    rw [setMember, if_neg (Ne.symm hm), ih h, List.cons_append]

theorem objectMembers_behind (st : Style) (hg : ∀ c ∈ gap, isSpace c = true)
    (hl : ∀ c ∈ last, isSpace c = true) {f : Json → List Char}
    (members : List (String × Json)) {ms : List (String × Json)}
    (distinct : ((members ++ ms).map Prod.fst).Nodup) (h : ∀ m ∈ ms, Readable room (f m.2) m.2) {fuel : Nat} (hf : ms.length < fuel)
    (rest : List Char) :
    Reads (objectMembers (value room) fuel false members)
      (ms.flatMap (fun m => ',' :: (gap ++ '"' :: st.memberTail m.1 (f m.2))) ++
        (last ++ ['\x7d'])) (members ++ ms) rest := by
  induction ms generalizing fuel members with
  | nil =>
    obtain ⟨fuel, rfl⟩ := Nat.exists_eq_add_of_le' hf
    rw [List.append_nil]
    exact objectMembers_end _ _ _ _ hl rest
  | cons m ms ih =>
    obtain ⟨fuel, rfl⟩ := Nat.exists_eq_add_of_le' (Nat.lt_of_le_of_lt (Nat.zero_le _) hf)
    obtain ⟨k, v⟩ := m
    obtain ⟨hv, hm⟩ := List.forall_mem_cons.1 h
    have fresh : k ∉ members.map Prod.fst := by
      rw [List.map_append, List.nodup_append] at distinct
      exact fun hk => distinct.2.2 k hk k List.mem_cons_self rfl
    rw [List.append_cons members] at distinct ⊢
    have others := ih _ distinct hm (Nat.lt_of_succ_lt_succ hf)
    rw [← setMember_fresh fresh v] at others ⊢
    have ends := delimited_parts gap hl (delimited_brace rest)
      (fun m => '"' :: st.memberTail m.1 (f m.2)) ms
    rw [List.flatMap_cons, List.append_assoc]
    generalize ms.flatMap _ ++ (last ++ ['\x7d']) = parts at others ends ⊢
    intro p
    obtain ⟨q, hq⟩ := nextKey_comma hg (st.memberTail k (f v) ++ (parts ++ rest)) p
    refine objectMembers_member st (p := q) ?_ hv ends others
    rw [← hq]
    simp only [List.append_assoc, List.cons_append]

theorem objectMembers_tail (st : Style) (depth : Nat) {f : Json → List Char}
    {ms : List (String × Json)} (distinct : (ms.map Prod.fst).Nodup)
    (h : ∀ m ∈ ms, Readable room (f m.2) m.2) {fuel : Nat} (hf : ms.length < fuel)
    (rest : List Char) :
    Reads (objectMembers (value room) fuel true [])
      (st.tail '\x7d' depth (ms.map fun m => '"' :: st.memberTail m.1 (f m.2))) ms rest := by
  obtain ⟨fuel, rfl⟩ := Nat.exists_eq_add_of_le' (Nat.lt_of_le_of_lt (Nat.zero_le _) hf)
  cases ms with
  | nil => exact objectMembers_end _ _ _ _ (List.forall_mem_nil _) rest
  | cons m ms =>
    obtain ⟨k, v⟩ := m
    obtain ⟨hv, hm⟩ := List.forall_mem_cons.1 h
    have others := objectMembers_behind st (st.gap_space (depth + 1)) (st.gap_space depth)
      [(k, v)] distinct hm (Nat.lt_of_succ_lt_succ hf) rest
    have ends := delimited_parts (st.gap (depth + 1)) (st.gap_space depth)
      (delimited_brace rest) (fun m => '"' :: st.memberTail m.1 (f m.2)) ms
    rw [List.map_cons, Style.tail, List.flatMap_map]
    generalize ms.flatMap _ ++ (st.gap depth ++ ['\x7d']) = parts at others ends ⊢
    intro p
    obtain ⟨q, hq⟩ := nextKey_first (st.gap_space (depth + 1))
      (st.memberTail k (f v) ++ (parts ++ rest)) p
    refine objectMembers_member st (p := q) ?_ hv ends others
    rw [← hq]
    simp only [List.append_assoc, List.cons_append]

end Parts

/-! ## Values -/

theorem length_le_tail (st : Style) (closing : Char) (depth : Nat) (texts : List (List Char)) :
    texts.length ≤ (st.tail closing depth texts).length := by
  cases texts with
  | nil => exact Nat.zero_le _
  | cons text texts =>
    have others := length_le_flatMap (f := fun text => ',' :: (st.gap (depth + 1) ++ text))
      (fun _ => List.cons_ne_nil _ _) texts
    simp only [Style.tail, List.length_append, List.length_cons, List.length_nil] at others ⊢
    omega

theorem value_list {room : Nat} {items : List Json} {text rest : List Char}
    (h : Reads (listItems (value room) (('[' :: text ++ rest).length + 1) true) text items rest) :
    Reads (value (room + 1)) ('[' :: text) (.array items) rest := by
  intro p
  obtain ⟨q, hq⟩ := h (p.advance '[')
  refine ⟨q, ?_⟩
  change valueWith (some (value room)) _ = _
  unfold valueWith
  rw [List.cons_append, skipSpace_cons (by decide)]
  change (listItems (value room) _ true ⟨text ++ rest, p.advance '['⟩).map _ = _
  rw [← List.cons_append, hq]
  rfl

theorem value_members {room : Nat} {members : List (String × Json)} {text rest : List Char}
    (h : Reads (objectMembers (value room) (('\x7b' :: text ++ rest).length + 1) true []) text
      members rest) :
    Reads (value (room + 1)) ('\x7b' :: text) (.object members) rest := by
  intro p
  obtain ⟨q, hq⟩ := h (p.advance '\x7b')
  refine ⟨q, ?_⟩
  change valueWith (some (value room)) _ = _
  unfold valueWith
  rw [List.cons_append, skipSpace_cons (by decide)]
  change (objectMembers (value room) _ true [] ⟨text ++ rest, p.advance '\x7b'⟩).map _ = _
  rw [← List.cons_append, hq]
  rfl

theorem spell_readable {room : Nat} {v : Json} (h : Fits ReadsBack room v) (st : Style)
    (depth : Nat) : Readable room (spell st depth v) v := by
  intro rest hr
  induction h generalizing depth rest with
  | null room =>
    rw [value_eq]
    exact valueWith_null _ rest
  | bool room b =>
    rw [value_eq]
    exact valueWith_bool _ b rest
  | integer room wide =>
    rw [value_eq]
    exact valueWith_integer _ wide hr
  | real room h =>
    rw [value_eq]
    exact valueWith_real _ h hr
  | string room s =>
    rw [value_eq]
    exact valueWith_string _ s rest
  | @array room items h ih =>
    rw [spell, spellItems_eq]
    have texts := length_le_tail st ']' depth (items.map (spell st (depth + 1)))
    rw [List.length_map] at texts
    refine value_list (listItems_tail st depth (fun v hv rest => ih v hv (depth + 1) rest) ?_ rest)
    rw [List.length_append, List.length_cons]
    omega
  | @object room members distinct h ih =>
    rw [spell, spellMembers_eq]
    have texts := length_le_tail st '\x7d' depth
      (members.map fun m => '"' :: st.memberTail m.1 (spell st (depth + 1) m.2))
    rw [List.length_map] at texts
    refine value_members (objectMembers_tail st depth distinct
      (fun m hm rest => ih m hm (depth + 1) rest) ?_ rest)
    rw [List.length_append, List.length_cons]
    omega

/-- A value that fits is read back from its text in any style. -/
theorem parse_spell {v : Json} (h : Fits ReadsBack nestingLimit v) {st : Style} {depth : Nat}
    {text : String} (ht : text.toList = spell st depth v) : parse text = .ok v := by
  obtain ⟨q, hq⟩ := spell_readable h st depth [] (fun c hc => nomatch hc) ⟨1, 0⟩
  rw [List.append_nil, ← ht] at hq
  unfold parse
  change (value nestingLimit ⟨text.toList, ⟨1, 0⟩⟩ >>= _) = _
  rw [hq]
  rfl

theorem parse_compact {v : Json} (h : Fits ReadsBack nestingLimit v) : parse v.compact = .ok v :=
  parse_spell h (toList_compact 0 v)

theorem parse_pretty {v : Json} (h : Fits ReadsBack nestingLimit v) : parse v.pretty = .ok v :=
  parse_spell h (toList_prettyAt 0 v)

end ScoreSheet.Json
