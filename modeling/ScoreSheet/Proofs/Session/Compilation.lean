import ScoreSheet.Proofs.Session.Edits
import ScoreSheet.Proofs.Validation.Compilation
set_option autoImplicit false

/-! Every compilation error that a session answers with comes from the active rule set,
which is one of the sheet, or from its conditions. So it is a defect of the sheet, and
validation would have reported it before the sheet was opened. -/
namespace ScoreSheet

open Rule

variable {e : CompilationError}

theorem evaluate_compilation {r : RuleSet} {elements : List Element} {limits : Limits}
    {store store' : Store}
    (h : evaluate r elements limits store = .error (.compilation e) store') :
    Program.compile r elements = .error e := by
  unfold evaluate at h
  cases hc : Program.compile r elements with
  | error e' =>
    rw [hc] at h
    cases h
    rfl
  | ok p =>
    simp only [hc, EStateM.adaptExcept] at h
    cases hr : p.run elements limits store <;> rw [hr] at h <;> cases h

/-- What does not compile leaves the store alone. -/
theorem evaluate_compilation_store {r : RuleSet} {elements : List Element} {limits : Limits}
    {store store' : Store}
    (h : evaluate r elements limits store = .error (.compilation e) store') : store' = store := by
  have failed := evaluate_compilation h
  unfold evaluate at h
  rw [failed] at h
  cases h
  rfl

namespace EditContext
variable {ctx : EditContext} {store store' : Store}

theorem evaluateActive_compilation
    (h : ctx.evaluateActive store = .error (.compilation e) store') :
    ∃ r, ctx.ruleSet = some r ∧ Program.compile r ctx.elements = .error e := by
  rw [evaluateActive_eq] at h
  split at h
  · cases h
  · rename_i r active
    refine ⟨r, active, ?_⟩
    split at h
    · cases h
    · rename_i he
      cases h
      exact evaluate_compilation he

theorem applyEdit_compilation {id : String} {value : Option Datum}
    (h : ctx.applyEdit id value store = .error (.compilation e) store') :
    ∃ r, ctx.ruleSet = some r ∧ Program.compile r ctx.elements = .error e := by
  rw [applyEdit_eq] at h
  split at h
  · cases h
  · rename_i he
    cases h
    exact evaluateActive_compilation he

theorem setValue_compilation {element : Element} {value : Option Datum}
    (h : ctx.setValue element value store = .error (.compilation e) store') :
    ∃ r, ctx.ruleSet = some r ∧ Program.compile r ctx.elements = .error e := by
  rcases ctx.setValue_cases element value store with ⟨outcome, -, kept⟩ | edited
  · cases kept.symm.trans h
  · exact applyEdit_compilation (edited.symm.trans h)

theorem click_compilation {p : Point} {scale : Float} {prompt : Question → Option String}
    (h : (ctx.click p scale store).answered prompt = .error (.compilation e) store') :
    ∃ r, ctx.ruleSet = some r ∧ Program.compile r ctx.elements = .error e := by
  rcases ctx.click_cases p scale prompt store with
    ⟨outcome, -, kept⟩ | ⟨element, -, value, -, edited⟩
  · cases kept.symm.trans h
  · exact applyEdit_compilation (edited.symm.trans h)

end EditContext

namespace Session
variable {s : Session}

theorem activeRuleSet?_mem {r : RuleSet} (h : s.activeRuleSet? = some r) :
    r ∈ s.sheet.allRuleSets := by
  obtain ⟨name, _, hr⟩ := Option.bind_eq_some_iff.1 h
  exact List.mem_of_find?_eq_some hr

/-- A compilation error that comes out of a run on the store of the session. -/
theorem defect_of_after {α : Type} {result : EStateM.Result RuleError Store α}
    (h : (s.after result).1 = .error (.rule (.compilation e)))
    (hr : ∀ store', result = .error (.compilation e) store' →
      ∃ r, s.activeRuleSet? = some r ∧ Program.compile r s.sheet.elements = .error e) :
    s.sheet.Defect e := by
  cases result with
  | ok x store' => cases h
  | error err store' =>
    cases h
    obtain ⟨r, active, he⟩ := hr store' rfl
    exact defect_of_compile (activeRuleSet?_mem active) he

theorem evaluate_defect (h : s.evaluate.1 = .error (.rule (.compilation e))) :
    s.sheet.Defect e := by
  unfold evaluate at h
  split at h
  · cases h
  · rename_i r active
    exact defect_of_after h fun store' he => ⟨r, active, evaluate_compilation he⟩

theorem perform_defect {op : Operation}
    (h : (s.perform op).1 = .error (.rule (.compilation e))) : s.sheet.Defect e := by
  cases op with
  | restore | clearRuleSet => cases h
  | select name =>
    replace h := map_error h
    unfold select at h
    split at h
    · cases h
    · exact evaluate_defect (s := { s with active := some name }) h
  | evaluate => exact evaluate_defect (map_error h)
  | click p scale prompt =>
    replace h := map_error h
    rw [click, answered_map] at h
    exact defect_of_after h fun store' he => EditContext.click_compilation he
  | setValue id value =>
    replace h := map_error h
    unfold setValue at h
    split at h
    · cases h
    · exact defect_of_after h fun store' he => EditContext.setValue_compilation he
  | reset => exact evaluate_defect (s := { s with store := .empty }) (map_error h)
  | verdict =>
    replace h := map_error h
    unfold verdict at h
    split at h
    · cases h
    · rename_i r active
      obtain ⟨err, hv, he⟩ := mapError_error h
      cases he
      exact defect_of_verdict (activeRuleSet?_mem active) hv

end Session

/-- What validation accepts compiles, at once and at any later point of a session, and
what fails to compile is reported by validation. -/
theorem validate_agrees_with_compile (sheet : Sheet) :
    (sheet.validate.violations = [] →
      (∀ r ∈ sheet.allRuleSets, ∃ p, Program.compile r sheet.elements = .ok p) ∧
      ∀ saved limits operations,
        ∀ answer ∈ ((Session.restore sheet saved limits).performAll operations).1,
          ∀ e, answer ≠ .error (.rule (.compilation e))) ∧
    (∀ r ∈ sheet.allRuleSets,
      (∃ e, Program.compile r sheet.elements = .error e) ∨
        (∃ elements store limits e,
          verdict r elements store limits = .error (.compilation e)) →
      ∃ v ∈ sheet.validate.violations, v.code ∈ ["V-004", "V-005", "V-006", "V-007"]) := by
  refine ⟨fun valid => ?_, ?_⟩
  · have sound : ∀ e, ¬ sheet.Defect e := fun e defect => by
      obtain ⟨v, hv, _⟩ := defect.reported
      rw [valid] at hv
      cases hv
    refine ⟨fun r hr => ?_, fun saved limits operations answer ha e he => ?_⟩
    · cases hc : Program.compile r sheet.elements with
      | ok p => exact ⟨p, rfl⟩
      | error e => exact absurd (defect_of_compile hr hc) (sound e)
    · have keep : ∀ (s : Session) op, s.sheet = sheet → (s.perform op).2.sheet = sheet :=
        fun s op hs => (s.perform_sheet op).trans hs
      obtain ⟨_, answers⟩ := Session.performAll_induction keep operations
        (.restore sheet saved limits) rfl
      obtain ⟨s, op, rfl, rfl⟩ := answers answer ha
      exact sound e (Session.perform_defect he)
  · rintro r hr (⟨e, he⟩ | ⟨elements, store, limits, e, he⟩)
    · exact (defect_of_compile hr he).reported
    · exact (defect_of_verdict hr he).reported

example : (Sheet.validate
    { name := "gate", version := ⟨1, 0, 0⟩
      ruleSets := some [{
        name := "default"
        functions := [("same", ⟨"a", "return a"⟩)]
        winCondition := some "same(true)"
        loseCondition := none }]
      elements := [], resources := none }).violations = [] := by
  decide +kernel

end ScoreSheet
