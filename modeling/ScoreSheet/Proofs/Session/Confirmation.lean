import Mathlib.Data.List.TakeWhile
import ScoreSheet.Proofs.Rule.NumberText
import ScoreSheet.Proofs.Session.Contract
import ScoreSheet.Proofs.State.Comparison
import ScoreSheet.Proofs.State.Patched
set_option autoImplicit false

/-! A click shows the current value of an element and asks for a text. The text of that value is
read as the value or as one that equals it, so setting it leaves the store as it is, and
without an active rule set nothing has to be drawn again. -/
namespace ScoreSheet

open Rule

theorem Datum.display_eq_of_beq {v w : Datum} (h : (v == w) = true) : v.display = w.display := by
  cases v <;> cases w
  case bool.bool a b => rw [show a = b from beq_iff_eq.1 h]
  case number.number x y => exact (Number.beq_iff.1 h).1.display
  case text.text s t => rw [show s = t from beq_iff_eq.1 h]
  all_goals cases h

theorem numberOfText_blank {s : String} (h : s.toList.all Text.isBlank = true) :
    numberOfText s = 0.0 := by
  have nothing : Text.trim s.toList = [] := by
    rw [Text.trim, List.dropWhile_eq_nil_iff.2 (List.all_eq_true.1 h)]
    rfl
  unfold numberOfText
  rw [nothing]

/-- The text of a finite number has something to read, and is read as a finite number. -/
theorem readable_display {x : Float} (finite : Number.isFinite x = true) :
    let text := Number.display x
    (x == numberOfText text) = true ∧ text.toList.all Text.isBlank = false ∧
      Number.isFinite (numberOfText text) = true := by
  have number : x.isNaN = false := Number.isNaN_of_isFinite finite
  have same : (x == numberOfText (Number.display x)) = true :=
    (numberOfText_display x).resolve_right fun h => by rw [number] at h; cases h.1
  refine ⟨same, Bool.eq_false_iff.2 fun blank => ?_, ?_⟩
  · -- A blank text stands for zero, and the text of zero is not blank.
    rw [numberOfText_blank blank] at same
    rw [(Number.beq_iff.1 same).1.display] at blank
    exact absurd blank (by decide)
  · rw [← (Number.beq_iff.1 same).1.isFinite, finite]

/-- Whether an element can have a value confirmed: a finite number, a text that is not empty,
or an option that equals the value while every earlier option of the same text does as well. -/
inductive Element.Confirms (e : Element) : Datum → Prop where
  | number {x : Float} (kind : e.kind = .number) (finite : Number.isFinite x = true) :
      Confirms e (.number x)
  | string {s : String} (kind : e.kind = .string) (filled : s ≠ "") : Confirms e (.text s)
  | option {v o : Datum} {before after : List Datum} (kind : e.kind = .options)
      (declared : e.options.getD [] = before ++ o :: after) (equal : (o == v) = true)
      (first : ∀ d ∈ before, d.display = v.display → (d == v) = true) : Confirms e v

/-- The first option of a text is the one that is confirmed, or an earlier one equal to it. -/
theorem find?_display {v o : Datum} {before after : List Datum} (equal : (o == v) = true)
    (first : ∀ d ∈ before, d.display = v.display → (d == v) = true) :
    ∃ w, (before ++ o :: after).find? (·.display == v.display) = some w ∧ (w == v) = true := by
  induction before with
  | nil =>
    refine ⟨o, ?_, equal⟩
    rw [List.nil_append, List.find?_cons_of_pos (by simp [Datum.display_eq_of_beq equal])]
  | cons d before ih =>
    obtain ⟨here, later⟩ := List.forall_mem_cons.1 first
    by_cases same : d.display = v.display
    · exact ⟨d, by rw [List.cons_append, List.find?_cons_of_pos (by simp [same])], here same⟩
    · rw [List.cons_append, List.find?_cons_of_neg (by simp [same])]
      exact ih later

/-- The text of a value that can be confirmed is read as an equal value. -/
theorem Element.Confirms.readAnswer {e : Element} {v : Datum} (h : e.Confirms v) :
    ∃ w, e.readAnswer v.display = some w ∧ (v == w) = true := by
  unfold Element.readAnswer
  cases h with
  | @number x kind finite =>
    obtain ⟨same, visible, read⟩ := readable_display finite
    refine ⟨.number (numberOfText (Number.display x)), ?_, same⟩
    simp only [kind, Datum.display, visible, read, Bool.not_true, Bool.or_self,
      Bool.false_eq_true, ↓reduceIte]
  | @string s kind filled =>
    refine ⟨.text s, ?_, BEq.rfl (α := String)⟩
    have something : s.isEmpty = false := by simpa using filled
    simp only [kind, Datum.display, something, Bool.false_eq_true, ↓reduceIte]
  | option kind declared equal first =>
    obtain ⟨w, found, same⟩ := find?_display equal first
    refine ⟨w, ?_, BEq.symm same⟩
    simp only [kind, declared]
    exact found

theorem Store.setValue_eq_self {s : Store} {id : String} {v w : Datum}
    (current : s.value? id = some v) (same : (v == w) = true) : (s.setValue id (some w)).1 = s := by
  rw [setValue_eq_apply]
  refine apply_eq_self ?_
  obtain ⟨e, found, value⟩ := Option.bind_eq_some_iff.1 current
  rw [apply_changed, found]
  refine Patch.changes_eq_false.2 ⟨?_, fun d hd => nomatch hd⟩
  rintro _ ⟨⟩
  rw [value]
  exact same

namespace Session

/-- Without an active rule set, an enabled element that is clicked and answered with the text
of its value keeps it: the session is as before, and nothing has to be drawn again. -/
theorem click_confirmed {s : Session} {p : Point} {scale : Float} {e : Element} {v : Datum}
    {prompt : Question → Option String} (unruled : s.activeRuleSet? = none)
    (numbers : ∀ entry ∈ s.store.entries, entry.hasNaN = false)
    (hit : hitTest s.sheet.elements p scale = some e) (enabled : s.store.isDisabled e.id = false)
    (current : s.store.value? e.id = some v) (confirms : e.Confirms v)
    (answer : prompt ⟨e, some v⟩ = some v.display) :
    (s.click p scale).transcript prompt =
      ((.ok (.updated e.id false none), s), [⟨e, some v⟩]) := by
  obtain ⟨w, read, same⟩ := confirms.readAnswer
  have other : e.kind ≠ .checkbox := by
    intro kind
    cases confirms <;> simp_all
  have kept := Store.setValue_eq_self current same
  have asked := s.edit_eq (.click p scale prompt)
  rw [edit] at asked
  rw [asked]
  simp only [Edit.target?, hit, enabled, Edit.entered?, Edit.questions, if_neg other, current,
    answer, Option.map_some, read, Bool.false_eq_true, ↓reduceIte]
  rw [enter_eq, unruled]
  dsimp only
  rw [kept, statesDiffer_self numbers]

/-- A negative zero is shown as `0` and stays negative when it is confirmed. -/
theorem click_confirmed_zero :
    let e : Element := ⟨"a", .number, ⟨0.0, 0.0⟩, ⟨8.0, 8.0⟩, none, []⟩
    let s : Session := restore
      { name := "one", version := ⟨1, 0, 0⟩, ruleSets := none, elements := [e], resources := none }
      [⟨"a", some (.number (-0.0)), none⟩] .default
    (s.click ⟨1.0, 1.0⟩ 1.0).transcript (fun _ => some "0") =
      ((.ok (.updated "a" false none), s), [⟨e, some (.number (-0.0))⟩]) := by
  intro e s
  have finite : Number.isFinite (-0.0) = true := by decide
  have numbers : ∀ entry ∈ s.store.entries, entry.hasNaN = false := by decide +zetaReduce
  have shown : some "0" = some (Datum.display (.number (-0.0))) := by decide
  refine click_confirmed (s := s) (e := e) rfl numbers ?hit rfl rfl (.number rfl finite) ?answer
  case hit => exact List.find?_cons_of_pos (by decide +zetaReduce)
  case answer => exact shown

end Session

end ScoreSheet
