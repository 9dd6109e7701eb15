import ScoreSheet.Proofs.Rule.NumberText
set_option autoImplicit false

/-! The number of an array is found without its text, and no array equals a number or a text, even
loosely. So the number is that of the text unless `undefined` or a boolean is what the array
holds in the end, and equality is that of the text unless the text itself is equal. -/
namespace ScoreSheet.Rule
open Text

section Comma
variable {cs : List Char}

theorem mem_dropWhile {p : Char → Bool} {c : Char} (h : c ∈ cs) (hc : p c = false) :
    c ∈ cs.dropWhile p := by
  rw [← List.takeWhile_append_dropWhile (p := p) (l := cs)] at h
  refine (List.mem_append.1 h).resolve_left fun run => ?_
  rw [List.all_eq_true.1 List.all_takeWhile c run] at hc
  cases hc

theorem comma_mem_trim (h : ',' ∈ cs) : ',' ∈ trim cs :=
  List.mem_reverse.2 (mem_dropWhile (List.mem_reverse.2 (mem_dropWhile h (by decide))) (by decide))

theorem comma_mem_unsigned (h : ',' ∈ cs) : ',' ∈ (Number.unsigned cs).2 := by
  unfold Number.unsigned
  split
  · exact (List.mem_cons.1 h).resolve_left (by decide)
  · exact (List.mem_cons.1 h).resolve_left (by decide)
  · exact h

theorem comma_mem_readFraction (h : ',' ∈ cs) : ',' ∈ (Number.readFraction cs).2 := by
  unfold Number.readFraction
  split
  · exact mem_dropWhile ((List.mem_cons.1 h).resolve_left (by decide)) (by decide)
  · exact h

theorem readExponent?_comma (h : ',' ∈ cs) : Number.readExponent? cs = none := by
  cases cs with
  | nil => exact absurd h List.not_mem_nil
  | cons c cs =>
    rw [Number.readExponent?]
    split
    · rename_i mark
      have behind : ',' ∈ cs := by
        refine (List.mem_cons.1 h).resolve_left ?_
        rintro rfl
        exact absurd mark (by decide)
      have digits : (Number.unsigned cs).2.all Number.isDigit = false :=
        List.all_eq_false.2 ⟨',', comma_mem_unsigned behind, by decide⟩
      generalize Number.unsigned cs = u at digits ⊢
      dsimp only
      rw [digits, Bool.not_false, Bool.or_true, if_pos rfl]
    · rfl

theorem read?_comma (h : ',' ∈ cs) : Number.read? cs = none := by
  have rest := readExponent?_comma
    (comma_mem_readFraction (mem_dropWhile (comma_mem_unsigned h) (show Number.isDigit ',' = false by decide)))
  unfold Number.read?
  dsimp only
  split
  · rfl
  · rw [rest]
    rfl

theorem isNaN_numberOfText_comma {s : String} (h : ',' ∈ s.toList) :
    (numberOfText s).isNaN = true := by
  have comma := comma_mem_trim h
  have other {w : List Char} (free : ',' ∉ w) : trim s.toList ≠ w := fun same => free (same ▸ comma)
  unfold numberOfText
  split
  · exact absurd ‹_› (other List.not_mem_nil)
  · rw [if_neg (not_or.2 ⟨other (by decide), other (by decide)⟩), if_neg (other (by decide)),
      read?_comma comma]
    exact Number.isNaN_nan

end Comma

namespace Value

mutual

/-- What an array of one item holds in the end: its item, or what this holds if it is such an
array as well. -/
def innermost : Value → Value
  | array items => itemsInnermost items
  | v => v

def itemsInnermost : List Value → Value
  | [] => array []
  | [v] => v.innermost
  | v :: w :: rest => array (v :: w :: rest)

end

/-- Whether a value in an array of one item has the number of the text that this array has. -/
def hasTextNumber : Value → Bool
  | undefined | bool _ => false
  | _ => true

theorem comma_mem_displayItems (v w : Value) (rest : List Value) :
    ',' ∈ (displayItems (v :: w :: rest)).toList := by
  rw [displayItems, String.toList_append, String.toList_append]
  exact List.mem_append_left _ (List.mem_append_right _ (by decide))

mutual

theorem sameNumber_iff (v : Value) :
    SameNumber v.toNumber (numberOfText (if v.isNullish then "" else v.display)) ↔
      v.innermost.hasTextNumber = true := by
  cases v with
  | undefined => exact iff_of_false (by unfold SameNumber; decide) (by decide)
  | null => exact iff_of_true (.inl (by decide)) rfl
  | bool b => exact iff_of_false (by unfold SameNumber; cases b <;> decide) Bool.false_ne_true
  | number x => exact iff_of_true (numberOfText_display x) rfl
  | string s => exact iff_of_true (.of_eq rfl) rfl
  | array items => exact itemsSameNumber_iff items
  | object fields =>
    have no_numeral : (numberOfText "[object Object]").isNaN = true := by decide
    exact iff_of_true (.inr ⟨Number.isNaN_nan, no_numeral⟩) rfl

theorem itemsSameNumber_iff (items : List Value) :
    SameNumber (itemsToNumber items) (numberOfText (displayItems items)) ↔
      (itemsInnermost items).hasTextNumber = true := by
  match items with
  | [] => exact iff_of_true (.inl (by decide)) rfl
  | [v] => exact sameNumber_iff v
  | v :: w :: rest =>
    have no_numeral := isNaN_numberOfText_comma (comma_mem_displayItems v w rest)
    exact iff_of_true (.inr ⟨Number.isNaN_nan, no_numeral⟩) rfl

end

theorem hasTextNumber_iff (v : Value) :
    v.hasTextNumber = true ↔ v ≠ undefined ∧ ∀ b, v ≠ bool b := by
  cases v with
  | undefined => exact iff_of_false Bool.false_ne_true fun h => h.1 rfl
  | bool b => exact iff_of_false Bool.false_ne_true fun h => h.2 b rfl
  | _ => exact iff_of_true rfl ⟨(fun h => nomatch h), fun _ h => nomatch h⟩

/-- The number of an array is the one of its text exactly if neither `undefined` nor a boolean
is what it holds in the end. An array equals no number and no text, so equality with one of them
is that of its text exactly where this text is not equal either. -/
theorem array_coercion (items : List Value) :
    (SameNumber (array items).toNumber (numberOfText (array items).display) ↔
      (array items).innermost ≠ undefined ∧ ∀ b, (array items).innermost ≠ bool b) ∧
    (∀ x : Float,
      ((array items).looseEquals (number x) =
          (string (array items).display).looseEquals (number x) ↔
        (numberOfText (array items).display == x) = false) ∧
      ((number x).looseEquals (array items) =
          (number x).looseEquals (string (array items).display) ↔
        (numberOfText (array items).display == x) = false)) ∧
    ∀ s : String,
      ((array items).looseEquals (string s) =
          (string (array items).display).looseEquals (string s) ↔ (array items).display ≠ s) ∧
      ((string s).looseEquals (array items) =
          (string s).looseEquals (string (array items).display) ↔ (array items).display ≠ s) := by
  refine ⟨(itemsSameNumber_iff items).trans (hasTextNumber_iff _), fun x => ⟨?_, ?_⟩,
    fun s => ⟨?_, ?_⟩⟩
  · exact eq_comm
  · change false = (x == numberOfText (array items).display) ↔ _
    rw [Number.beq_comm]
    exact eq_comm
  · change false = ((array items).display == s) ↔ _
    rw [eq_comm, beq_eq_false_iff_ne]
  · change false = (s == (array items).display) ↔ _
    rw [eq_comm, beq_eq_false_iff_ne, ne_comm]

/-- An array of `undefined` has no number and differs from its text, which is the empty one. -/
theorem array_coercion_undefined :
    ¬ (SameNumber (array [undefined]).toNumber (numberOfText (array [undefined]).display) ∨
      (array [undefined]).looseEquals (string "") =
        (string (array [undefined]).display).looseEquals (string "")) := by
  unfold SameNumber
  decide

end Value

end ScoreSheet.Rule
