import ScoreSheet.Proofs.Json.Numbers
set_option autoImplicit false

/-! The compact and the laid-out form of a value differ in the spaces between its parts only.
Both are texts in one general style, which says what stands in front of an item and behind
a colon. -/
namespace ScoreSheet.Json

/-- The spaces in front of an item or a closing bracket at each depth, and behind a colon. -/
structure Style where
  gap : Nat → List Char
  afterColon : List Char
  gap_space : ∀ depth, ∀ c ∈ gap depth, isSpace c = true
  afterColon_space : ∀ c ∈ afterColon, isSpace c = true

namespace Style

def compact : Style where
  gap _ := []
  afterColon := []
  gap_space _ _ h := absurd h List.not_mem_nil
  afterColon_space _ h := absurd h List.not_mem_nil

def lineBreak (depth : Nat) : List Char := '\n' :: List.replicate (2 * depth) ' '

theorem lineBreak_space (depth : Nat) : ∀ c ∈ lineBreak depth, isSpace c = true := by
  refine List.forall_mem_cons.2 ⟨rfl, fun c hc => ?_⟩
  rw [List.eq_of_mem_replicate hc]
  rfl

def laidOut : Style where
  gap := lineBreak
  afterColon := [' ']
  gap_space := lineBreak_space
  afterColon_space := List.forall_mem_singleton.2 rfl

variable (st : Style)

def tail (closing : Char) (depth : Nat) : List (List Char) → List Char
  | [] => [closing]
  | text :: texts =>
    st.gap (depth + 1) ++ text ++
      (texts.flatMap (fun text => ',' :: (st.gap (depth + 1) ++ text)) ++
        (st.gap depth ++ [closing]))

def memberTail (key : String) (text : List Char) : List Char :=
  quoteTail key ++ ':' :: (st.afterColon ++ text)

end Style

variable (st : Style)

mutual

def spell (depth : Nat) : Json → List Char
  | null => ['n', 'u', 'l', 'l']
  | bool b => (if b then "true" else "false").toList
  | integer n => integerText n
  | real x => (realText x).toList
  | string s => '"' :: quoteTail s
  | array items => '[' :: st.tail ']' depth (spellItems (depth + 1) items)
  | object members => '\x7b' :: st.tail '\x7d' depth (spellMembers (depth + 1) members)

def spellItems (depth : Nat) : List Json → List (List Char)
  | [] => []
  | v :: rest => spell depth v :: spellItems depth rest

def spellMembers (depth : Nat) : List (String × Json) → List (List Char)
  | [] => []
  | (k, v) :: rest => ('"' :: st.memberTail k (spell depth v)) :: spellMembers depth rest

end

theorem spellItems_eq (depth : Nat) (items : List Json) :
    spellItems st depth items = items.map (spell st depth) := by
  induction items with
  | nil => rfl
  | cons v rest ih => rw [spellItems, ih, List.map_cons]

theorem spellMembers_eq (depth : Nat) (members : List (String × Json)) :
    spellMembers st depth members =
      members.map fun m => '"' :: st.memberTail m.1 (spell st depth m.2) := by
  induction members with
  | nil => rfl
  | cons m rest ih => rw [spellMembers, ih, List.map_cons]

theorem toList_join (separator s : String) (rest : List String) :
    (join separator (s :: rest)).toList =
      s.toList ++ rest.flatMap fun t => separator.toList ++ t.toList := by
  induction rest generalizing s with
  | nil => rw [join, List.flatMap_nil, List.append_nil]
  | cons t rest ih =>
    rw [join, String.toList_append, String.toList_append, ih, List.flatMap_cons]
    simp only [List.append_assoc]
    exact fun h => nomatch h

theorem tail_compact (closing : Char) (depth : Nat) (texts : List String) :
    Style.compact.tail closing depth (texts.map String.toList) =
      (join "," texts).toList ++ [closing] := by
  cases texts with
  | nil => rfl
  | cons text texts =>
    rw [toList_join, List.map_cons, Style.tail, List.flatMap_map, List.append_assoc text.toList]
    rfl

mutual

theorem toList_compact (depth : Nat) (v : Json) :
    v.compact.toList = spell Style.compact depth v := by
  cases v with
  | null => rfl
  | bool b => rfl
  | integer n => exact toList_toString n
  | real x => rfl
  | string s => exact toList_quote s
  | array items =>
    rw [spell, ← toList_compactItems, tail_compact, compact, String.toList_append,
      String.toList_append]
    rfl
  | object members =>
    rw [spell, ← toList_compactMembers, tail_compact, compact, String.toList_append,
      String.toList_append]
    rfl

theorem toList_compactItems (depth : Nat) (items : List Json) :
    (compactItems items).map String.toList = spellItems Style.compact depth items := by
  cases items with
  | nil => rfl
  | cons v rest =>
    rw [compactItems, List.map_cons, toList_compact depth v, toList_compactItems depth rest,
      spellItems]

theorem toList_compactMembers (depth : Nat) (members : List (String × Json)) :
    (compactMembers members).map String.toList = spellMembers Style.compact depth members := by
  cases members with
  | nil => rfl
  | cons m rest =>
    obtain ⟨k, v⟩ := m
    rw [compactMembers, List.map_cons, String.toList_append, String.toList_append,
      toList_quote, toList_compact depth v, toList_compactMembers depth rest, spellMembers,
      Style.memberTail, List.cons_append, List.cons_append, List.append_assoc]
    rfl

end

theorem toList_laidOut (opening closing : Char) (depth : Nat) (texts : List String) :
    (laidOut (.singleton opening) (.singleton closing) depth texts).toList =
      opening :: Style.laidOut.tail closing depth (texts.map String.toList) := by
  cases texts with
  | nil => simp [Style.tail, laidOut]
  | cons text texts =>
    have gap (n : Nat) : Style.laidOut.gap n = '\n' :: (indent n).toList := by
      rw [indent, String.toList_ofList]
      rfl
    simp only [Style.tail, laidOut, List.map_cons, toList_join, String.toList_append, gap,
      List.flatMap_map, String.toList_singleton]
    simp

mutual

theorem toList_prettyAt (depth : Nat) (v : Json) :
    (prettyAt depth v).toList = spell Style.laidOut depth v := by
  cases v with
  | null =>
    rw [prettyAt, spell]
    rfl
  | bool b => rfl
  | integer n => exact toList_toString n
  | real x => rfl
  | string s => exact toList_quote s
  | array items =>
    rw [spell, ← toList_prettyItems, ← toList_laidOut]
    rfl
  | object members =>
    rw [spell, ← toList_prettyMembers, ← toList_laidOut]
    rfl

theorem toList_prettyItems (depth : Nat) (items : List Json) :
    (prettyItems depth items).map String.toList = spellItems Style.laidOut depth items := by
  cases items with
  | nil => rfl
  | cons v rest =>
    rw [prettyItems, List.map_cons, toList_prettyAt depth v, toList_prettyItems depth rest,
      spellItems]

theorem toList_prettyMembers (depth : Nat) (members : List (String × Json)) :
    (prettyMembers depth members).map String.toList =
      spellMembers Style.laidOut depth members := by
  cases members with
  | nil => rfl
  | cons m rest =>
    obtain ⟨k, v⟩ := m
    rw [prettyMembers, List.map_cons, String.toList_append, String.toList_append,
      toList_quote, toList_prettyAt depth v, toList_prettyMembers depth rest, spellMembers,
      Style.memberTail, List.cons_append, List.cons_append, List.append_assoc]
    rfl

end

end ScoreSheet.Json
