import ScoreSheet.Proofs.Session.Compilation
import ScoreSheet.Proofs.State.Fading
set_option autoImplicit false

/-! A click and a typed value are two ways to enter a value for an element. Either nothing happens
at all, or exactly that value is replaced and the active rule set runs on the store that this
gives. Whatever ends the edit early ends it before the first write. -/
namespace ScoreSheet

open Rule

/-- The second store is the first one with another value for an id. A value that equals the
new one stays as it is, and only a value makes a new entry. -/
structure Store.ReplacesValue (s : Store) (id : String) (v : Option Datum) (t : Store) : Prop where
  value : t.value? id = if s.value? id == v then s.value? id else v
  disabled : t.disabled? id = s.disabled? id
  others : ∀ other, other ≠ id → t.get? other = s.get? other
  ids : t.ids = if s.get? id = none ∧ v.isSome = true then s.ids ++ [id] else s.ids

theorem Store.setValue_replaces (s : Store) (id : String) (v : Option Datum) :
    s.ReplacesValue id v (s.setValue id v).1 := by
  rw [setValue_eq_apply]
  constructor
  case value => rw [value?_apply, if_pos rfl]
  case disabled => rw [disabled?_apply, if_pos rfl, Option.none_or]
  case others => exact fun other there => by rw [get?_apply, if_neg there]
  case ids => rw [ids_apply, Patch.hasContent, Option.join_some, Option.isSome_none, Bool.or_false]

inductive Edit where
  | click (p : Point) (scale : Float) (prompt : Question → Option String)
  | set (id : String) (value : Option Datum)

/-- The result when questions are put to `prompt`, and the questions in their order. -/
def Interaction.transcript {α : Type} (prompt : Question → Option String) :
    Interaction α → α × List Question
  | done x => (x, [])
  | ask q resume => (resume (prompt q), [q])

theorem Interaction.transcript_map {α β : Type} (f : α → β) (prompt : Question → Option String)
    (i : Interaction α) : (i.map f).transcript prompt = (i.transcript prompt).map f id := by
  cases i <;> rfl

namespace Edit

def target? (elements : List Element) : Edit → Option Element
  | click p scale _ => hitTest elements p scale
  | set id _ => elements.find? (·.id == id)

def unaddressed : Edit → Except SessionError EditOutcome
  | click .. => .ok .missed
  | set id _ => .error (.unknownElement id)

def questions (e : Element) (current : Option Datum) : Edit → List Question
  | click .. => if e.kind = .checkbox then [] else [⟨e, current⟩]
  | set .. => []

def entered? (e : Element) (current : Option Datum) : Edit → Option (Option Datum)
  | click _ _ prompt =>
    if e.kind = .checkbox then some (some (.bool !(current == some (.bool true))))
    else (prompt ⟨e, current⟩).map e.readAnswer
  | set _ value => some value

end Edit

namespace Session

def edit (s : Session) : Edit → Step EditOutcome × List Question
  | .click p scale prompt => (s.click p scale).transcript prompt
  | .set id value => (s.setValue id value, [])

def enter (s : Session) (id : String) (value : Option Datum) : Step EditOutcome :=
  s.after (s.context.applyEdit id value s.store)

theorem edit_eq (s : Session) (edit : Edit) :
    s.edit edit =
      match edit.target? s.sheet.elements with
      | none => ((edit.unaddressed, s), [])
      | some e =>
        if s.store.isDisabled e.id then ((.ok (.rejected e.id), s), [])
        else
          (match edit.entered? e (s.store.value? e.id) with
            | none => (.ok (.cancelled e.id), s)
            | some v => s.enter e.id v,
           edit.questions e (s.store.value? e.id)) := by
  cases edit with
  | click p scale prompt =>
    have elements : s.context.elements = s.sheet.elements := rfl
    rw [edit, click, Interaction.transcript_map, EditContext.click, Edit.target?, elements]
    cases hitTest s.sheet.elements p scale with
    | none => rfl
    | some e =>
      dsimp only
      split
      · rfl
      · simp only [Edit.entered?, Edit.questions]
        split
        · rfl
        · rw [Interaction.transcript]
          cases prompt ⟨e, s.store.value? e.id⟩ <;> rfl
  | set id value =>
    rw [edit, setValue, Edit.target?, Sheet.element?]
    cases s.sheet.elements.find? (·.id == id) with
    | none => rfl
    | some e =>
      dsimp only
      rw [EditContext.setValue_eq]
      split <;> rfl

/-- What becomes of an entered value: the step of the active rule set on the store that has
it, if there is one. -/
theorem enter_eq (s : Session) (id : String) (value : Option Datum) :
    s.enter id value =
      match s.activeRuleSet? with
      | none =>
        let t := (s.store.setValue id value).1
        (.ok (.updated id (statesDiffer s.store.entries t.entries) none), { s with store := t })
      | some r =>
        match ScoreSheet.evaluate r s.sheet.elements s.limits (s.store.setValue id value).1 with
        | .ok report t =>
          (.ok (.updated id (statesDiffer s.store.entries t.entries) (some report)),
            { s with store := t })
        | .error err t => (.error (.rule err), { s with store := t }) := by
  have active : s.context.ruleSet = s.activeRuleSet? := rfl
  rw [enter, EditContext.applyEdit_eq, EditContext.evaluateActive_eq, active]
  cases s.activeRuleSet? with
  | none => rfl
  | some r =>
    dsimp only [context]
    cases ScoreSheet.evaluate r s.sheet.elements s.limits (s.store.setValue id value).1 <;> rfl

def isIdle : Except SessionError EditOutcome → Bool
  | .ok outcome => !outcome.isUpdate
  | .error (.unknownElement _) => true
  | .error _ => false

section Enter
variable {s : Session} {id : String} {v : Option Datum}

theorem enter_isIdle (s : Session) (id : String) (v : Option Datum) :
    isIdle (s.enter id v).1 = false := by
  rw [enter_eq]
  cases s.activeRuleSet? with
  | none => rfl
  | some r =>
    dsimp only
    cases ScoreSheet.evaluate r s.sheet.elements s.limits (s.store.setValue id v).1 <;> rfl

theorem enter_updated {other : String} {rerender : Bool} {report : Option Report}
    (h : (s.enter id v).1 = .ok (.updated other rerender report)) :
    id = other ∧ ∃ t, (s.enter id v).2 = { s with store := t } ∧
      rerender = statesDiffer s.store.entries t.entries ∧
      match s.activeRuleSet? with
      | none => report = none ∧ t = (s.store.setValue id v).1
      | some r => ∃ outcome, report = some outcome ∧
          ScoreSheet.evaluate r s.sheet.elements s.limits (s.store.setValue id v).1 =
            .ok outcome t := by
  rw [enter_eq] at h ⊢
  cases active : s.activeRuleSet? with
  | none =>
    rw [active] at h
    cases h
    exact ⟨rfl, _, rfl, rfl, rfl, rfl⟩
  | some r =>
    rw [active] at h
    cases run : ScoreSheet.evaluate r s.sheet.elements s.limits (s.store.setValue id v).1 with
    | ok outcome t =>
      simp only [run] at h ⊢
      cases h
      exact ⟨rfl, t, rfl, rfl, outcome, rfl, rfl⟩
    | error err t =>
      simp only [run] at h
      cases h

/-- An error comes out of the active rule set, with the store that it leaves. -/
theorem enter_error {err : RuleError} (h : (s.enter id v).1 = .error (.rule err)) :
    ∃ r t, s.activeRuleSet? = some r ∧
      ScoreSheet.evaluate r s.sheet.elements s.limits (s.store.setValue id v).1 = .error err t ∧
      (s.enter id v).2 = { s with store := t } := by
  rw [enter_eq] at h ⊢
  cases active : s.activeRuleSet? with
  | none =>
    rw [active] at h
    cases h
  | some r =>
    rw [active] at h
    cases run : ScoreSheet.evaluate r s.sheet.elements s.limits (s.store.setValue id v).1 with
    | ok outcome t =>
      simp only [run] at h
      cases h
    | error e t =>
      simp only [run] at h ⊢
      cases h
      exact ⟨r, t, rfl, run, rfl⟩

end Enter

structure Enters (s : Session) (edit : Edit) (e : Element) (v : Option Datum) : Prop where
  target : edit.target? s.sheet.elements = some e
  enabled : s.store.isDisabled e.id = false
  entered : edit.entered? e (s.store.value? e.id) = some v

/-- An edit enters a value, or it only depends on the elements and the store and leaves every
session with them as it is. -/
theorem edit_cases (s : Session) (edit : Edit) :
    (∃ result questions, isIdle result = true ∧ ∀ t : Session, t.sheet.elements = s.sheet.elements →
        t.store = s.store → t.edit edit = ((result, t), questions)) ∨
      ∃ e v, s.Enters edit e v ∧ (s.edit edit).1 = s.enter e.id v := by
  cases target : edit.target? s.sheet.elements with
  | none =>
    refine .inl ⟨edit.unaddressed, [], by cases edit <;> rfl, fun t elements store => ?_⟩
    rw [edit_eq, elements, target]
  | some e =>
    by_cases disabled : s.store.isDisabled e.id = true
    · refine .inl ⟨.ok (.rejected e.id), [], rfl, fun t elements store => ?_⟩
      simp only [edit_eq, elements, store, target, disabled, ↓reduceIte]
    · cases entered : edit.entered? e (s.store.value? e.id) with
      | none =>
        refine .inl ⟨.ok (.cancelled e.id), edit.questions e (s.store.value? e.id), rfl,
          fun t elements store => ?_⟩
        simp only [edit_eq, elements, store, target, disabled, entered, Bool.false_eq_true,
          ↓reduceIte]
      | some v =>
        refine .inr ⟨e, v, ⟨target, Bool.eq_false_iff.2 disabled, entered⟩, ?_⟩
        simp only [edit_eq, target, disabled, entered, Bool.false_eq_true, ↓reduceIte]

theorem edit_entered (s : Session) (edit : Edit) (h : isIdle (s.edit edit).1.1 = false) :
    ∃ e v, s.Enters edit e v ∧ (s.edit edit).1 = s.enter e.id v := by
  refine (s.edit_cases edit).resolve_left fun ⟨result, questions, quiet, same⟩ => ?_
  rw [same s rfl rfl, quiet] at h
  cases h

theorem edit_rejected (s : Session) (edit : Edit) (id : String) :
    (s.edit edit).1.1 = .ok (.rejected id) ↔
      ∃ e, edit.target? s.sheet.elements = some e ∧ e.id = id ∧
        s.store.isDisabled e.id = true := by
  rw [edit_eq]
  cases edit.target? s.sheet.elements with
  | none =>
    refine iff_of_false (fun h => ?_) fun ⟨_, h, _⟩ => nomatch h
    cases edit <;> cases h
  | some e =>
    by_cases disabled : s.store.isDisabled e.id = true
    · simp only [disabled, ↓reduceIte, Option.some.injEq, exists_eq_left', and_true,
        Except.ok.injEq, EditOutcome.rejected.injEq]
    · simp only [disabled, Bool.false_eq_true, ↓reduceIte]
      refine iff_of_false (fun h => ?_) fun ⟨_, same, _, rejected⟩ => ?_
      · cases entered : edit.entered? e (s.store.value? e.id) with
        | none =>
          rw [entered] at h
          cases h
        | some v =>
          have quiet := s.enter_isIdle e.id v
          rw [entered] at h
          rw [h] at quiet
          cases quiet
      · cases same
        exact disabled rejected

theorem edit_questions (s : Session) (edit : Edit) :
    (s.edit edit).2 =
      match edit.target? s.sheet.elements with
      | none => []
      | some e =>
        if s.store.isDisabled e.id then [] else edit.questions e (s.store.value? e.id) := by
  rw [edit_eq]
  cases edit.target? s.sheet.elements with
  | none => rfl
  | some e =>
    dsimp only
    split <;> rfl

theorem mem_edit_questions (s : Session) (edit : Edit) (q : Question) :
    q ∈ (s.edit edit).2 ↔ ∃ p scale prompt e, edit = .click p scale prompt ∧
      hitTest s.sheet.elements p scale = some e ∧ s.store.isDisabled e.id = false ∧
        e.kind ≠ .checkbox ∧ q = ⟨e, s.store.value? e.id⟩ := by
  rw [edit_questions]
  cases edit with
  | set id value =>
    refine iff_of_false (fun h => ?_) fun ⟨_, _, _, _, h, _⟩ => nomatch h
    split at h
    · cases h
    · split at h <;> cases h
  | click p scale prompt =>
    constructor
    · intro h
      split at h
      · cases h
      · rename_i e hit
        split at h
        · cases h
        · rename_i enabled
          rw [Edit.questions] at h
          split at h
          · cases h
          · rename_i other
            exact ⟨p, scale, prompt, e, rfl, hit, Bool.eq_false_iff.2 enabled, other,
              List.mem_singleton.1 h⟩
    · rintro ⟨_, _, _, e, ⟨⟩, hit, enabled, other, rfl⟩
      simp only [Edit.target?, hit, enabled, Bool.false_eq_true, ↓reduceIte, Edit.questions,
        if_neg other, List.mem_singleton]

/-- What edits promise, whichever way they are made and however they end. -/
structure EditContract (s : Session) (edit : Edit) : Prop where
  /-- No rule has run: with any other rule sets, active or not, the same happens. -/
  idle : isIdle (s.edit edit).1.1 = true → (s.edit edit).1.2 = s ∧
    ∀ t : Session, t.sheet.elements = s.sheet.elements → t.store = s.store →
      t.edit edit = (((s.edit edit).1.1, t), (s.edit edit).2)
  rejected : ∀ id, (s.edit edit).1.1 = .ok (.rejected id) ↔
    ∃ e, edit.target? s.sheet.elements = some e ∧ e.id = id ∧ s.store.isDisabled e.id = true
  asks : ∀ q, q ∈ (s.edit edit).2 ↔ ∃ p scale prompt e, edit = .click p scale prompt ∧
    hitTest s.sheet.elements p scale = some e ∧ s.store.isDisabled e.id = false ∧
      e.kind ≠ .checkbox ∧ q = ⟨e, s.store.value? e.id⟩
  once : (s.edit edit).2.length ≤ 1
  replaces : ∀ e v, s.Enters edit e v →
    s.store.ReplacesValue e.id v (s.store.setValue e.id v).1
  updated : ∀ id rerender report, (s.edit edit).1.1 = .ok (.updated id rerender report) →
    ∃ e v t, s.Enters edit e v ∧ e.id = id ∧ (s.edit edit).1.2 = { s with store := t } ∧
      rerender = statesDiffer s.store.entries t.entries ∧
      match s.activeRuleSet? with
      | none => report = none ∧ t = (s.store.setValue e.id v).1
      | some r => ∃ outcome, report = some outcome ∧
          ScoreSheet.evaluate r s.sheet.elements s.limits (s.store.setValue e.id v).1 =
            .ok outcome t
  compilation : ∀ err, (s.edit edit).1.1 = .error (.rule (.compilation err)) →
    ∃ e v, s.Enters edit e v ∧
      (s.edit edit).1.2 = { s with store := (s.store.setValue e.id v).1 }
  evaluation : ∀ err, (s.edit edit).1.1 = .error (.rule (.evaluation err)) →
    ∃ e v r t, s.Enters edit e v ∧ s.activeRuleSet? = some r ∧
      ScoreSheet.evaluate r s.sheet.elements s.limits (s.store.setValue e.id v).1 =
        .error (.evaluation err) t ∧
      (s.edit edit).1.2 = { s with store := t }

theorem edit_contract (s : Session) (edit : Edit) : s.EditContract edit := by
  constructor
  case idle =>
    intro h
    rcases s.edit_cases edit with ⟨result, questions, -, same⟩ | ⟨e, v, -, entered⟩
    · have here := same s rfl rfl
      exact ⟨by rw [here], fun t elements store => by rw [here, same t elements store]⟩
    · rw [entered, enter_isIdle] at h
      cases h
  case rejected => exact s.edit_rejected edit
  case asks => exact s.mem_edit_questions edit
  case once =>
    rw [edit_questions]
    split
    · exact Nat.zero_le 1
    · split
      · exact Nat.zero_le 1
      · cases edit with
        | click p scale prompt =>
          rw [Edit.questions]
          split
          · exact Nat.zero_le 1
          · exact Nat.le_refl 1
        | set id value => exact Nat.zero_le 1
  case replaces => exact fun e v _ => s.store.setValue_replaces e.id v
  case updated =>
    intro id rerender report h
    obtain ⟨e, v, enters, entered⟩ := s.edit_entered edit (by rw [h]; rfl)
    rw [entered] at h ⊢
    obtain ⟨rfl, t, left⟩ := enter_updated h
    exact ⟨e, v, t, enters, rfl, left⟩
  case compilation =>
    intro err h
    obtain ⟨e, v, enters, entered⟩ := s.edit_entered edit (by rw [h]; rfl)
    rw [entered] at h ⊢
    obtain ⟨r, t, -, failed, left⟩ := enter_error h
    exact ⟨e, v, enters, evaluate_compilation_store failed ▸ left⟩
  case evaluation =>
    intro err h
    obtain ⟨e, v, enters, entered⟩ := s.edit_entered edit (by rw [h]; rfl)
    rw [entered] at h ⊢
    obtain ⟨r, t, active, failed, left⟩ := enter_error h
    exact ⟨e, v, r, t, enters, active, failed, left⟩

example :
    let e : Element := ⟨"a", .checkbox, ⟨0.0, 0.0⟩, ⟨0.0, 0.0⟩, none, []⟩
    let s : Session := start
      { name := "box", version := ⟨1, 0, 0⟩, ruleSets := none, elements := [e], resources := none }
      .default
    let checked : Store := ⟨[⟨"a", some (.bool true), none⟩]⟩
    (s.edit (.set "a" (some (.bool true)))).1 =
        (.ok (.updated "a" true none), { s with store := checked }) ∧
      (s.edit (.set "b" none)).1 = (.error (.unknownElement "b"), s) :=
  ⟨rfl, rfl⟩

end Session

end ScoreSheet
