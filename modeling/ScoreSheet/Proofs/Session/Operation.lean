import ScoreSheet.Session
set_option autoImplicit false

namespace ScoreSheet

/-- What is done with a sheet. Restoring opens the sheet of the session anew. -/
inductive Operation where
  | restore (saved : List Entry) (limits : Limits)
  | select (name : String)
  | clearRuleSet
  | evaluate
  | click (p : Point) (scale : Float) (prompt : Question → Option String)
  | setValue (id : String) (value : Option Datum)
  | reset
  | verdict

inductive Answer where
  | silent
  | report (r : Report)
  | edit (o : EditOutcome)
  | verdict (v : Verdict)

def Interaction.answered {α : Type} (prompt : Question → Option String) : Interaction α → α
  | done x => x
  | ask q resume => resume (prompt q)

def Step.map {α β : Type} (f : α → β) (step : Step α) : Step β := (step.1.map f, step.2)

namespace Session

def perform (s : Session) : Operation → Step Answer
  | .restore saved limits => (.ok .silent, restore s.sheet saved limits)
  | .select name => (s.select name).map .report
  | .clearRuleSet => (.ok .silent, s.clearRuleSet)
  | .evaluate => s.evaluate.map .report
  | .click p scale prompt => ((s.click p scale).answered prompt).map .edit
  | .setValue id value => (s.setValue id value).map .edit
  | .reset => s.reset.map .report
  | .verdict => (s.verdict.map .verdict, s)

def performAll (s : Session) : List Operation → List (Except SessionError Answer) × Session
  | [] => ([], s)
  | op :: ops =>
    let rest := (s.perform op).2.performAll ops
    ((s.perform op).1 :: rest.1, rest.2)

/-- What every operation keeps holds after any number of them, and every answer is one
to an operation on a session where it holds. -/
theorem performAll_induction {I : Session → Prop}
    (keep : ∀ s op, I s → I (s.perform op).2) (ops : List Operation) (s : Session) (hs : I s) :
    I (s.performAll ops).2 ∧
      ∀ answer ∈ (s.performAll ops).1, ∃ s' op, I s' ∧ answer = (s'.perform op).1 := by
  induction ops generalizing s with
  | nil => exact ⟨hs, fun answer h => by cases h⟩
  | cons op ops ih =>
    obtain ⟨hlast, hrest⟩ := ih (s.perform op).2 (keep s op hs)
    refine ⟨hlast, fun answer h => ?_⟩
    rcases List.mem_cons.1 h with rfl | h
    · exact ⟨s, op, hs, rfl⟩
    · exact hrest answer h

@[simp] theorem after_sheet {α : Type} (s : Session) (r : EStateM.Result RuleError Store α) :
    (s.after r).2.sheet = s.sheet := by
  cases r <;> rfl

@[simp] theorem evaluate_sheet (s : Session) : s.evaluate.2.sheet = s.sheet := by
  unfold evaluate
  split
  · rfl
  · exact s.after_sheet _

theorem answered_map {α β : Type} (f : α → β) (prompt : Question → Option String)
    (i : Interaction α) : (i.map f).answered prompt = f (i.answered prompt) := by
  cases i <;> rfl

theorem perform_sheet (s : Session) (op : Operation) : (s.perform op).2.sheet = s.sheet := by
  cases op with
  | restore | clearRuleSet | verdict => rfl
  | select name =>
    change (s.select name).2.sheet = s.sheet
    unfold select
    split
    · rfl
    · exact evaluate_sheet _
  | evaluate => exact s.evaluate_sheet
  | click p scale prompt =>
    change ((s.click p scale).answered prompt).2.sheet = s.sheet
    rw [click, answered_map]
    exact s.after_sheet _
  | setValue id value =>
    change (s.setValue id value).2.sheet = s.sheet
    unfold setValue
    split
    · rfl
    · exact s.after_sheet _
  | reset => exact evaluate_sheet _

end Session

end ScoreSheet
