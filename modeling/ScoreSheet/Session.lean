import ScoreSheet.Edit
import ScoreSheet.Evaluation.Verdict
set_option autoImplicit false

namespace ScoreSheet

open Rule

structure Session where
  sheet : Sheet
  active : Option String
  store : Store
  limits : Limits

inductive SessionError where
  | unknownRuleSet (name : String)
  | unknownElement (id : String)
  | rule (e : RuleError)
deriving DecidableEq

def SessionError.message : SessionError → String
  | unknownRuleSet name => s!"unknown ruleset {inQuotes name}"
  | unknownElement id => s!"unknown element {inQuotes id}"
  | rule e => e.message

/-- The result of a step and the session after it, which a failed step may have
changed. -/
abbrev Step (α : Type) := Except SessionError α × Session

namespace Session

def restore (sheet : Sheet) (saved : List Entry) (limits : Limits) : Session :=
  ⟨sheet, none, .ofEntries saved, limits⟩

def start (sheet : Sheet) (limits : Limits) : Session := restore sheet [] limits

def activeRuleSet? (s : Session) : Option RuleSet := s.active.bind s.sheet.ruleSet?

def after {α : Type} (s : Session) : EStateM.Result RuleError Store α → Step α
  | .ok x store => (.ok x, { s with store := store })
  | .error e store => (.error (.rule e), { s with store := store })

def evaluate (s : Session) : Step Report :=
  match s.activeRuleSet? with
  | none => (.ok .idle, s)
  | some r => s.after (ScoreSheet.evaluate r s.sheet.elements s.limits s.store)

def select (s : Session) (name : String) : Step Report :=
  match s.sheet.ruleSet? name with
  | none => (.error (.unknownRuleSet name), s)
  | some _ => evaluate { s with active := some name }

def clearRuleSet (s : Session) : Session := { s with active := none }

def context (s : Session) : EditContext := ⟨s.sheet.elements, s.activeRuleSet?, s.limits⟩

def click (s : Session) (p : Point) (scale : Float) : Interaction (Step EditOutcome) :=
  (s.context.click p scale s.store).map s.after

def setValue (s : Session) (id : String) (value : Option Datum) : Step EditOutcome :=
  match s.sheet.element? id with
  | none => (.error (.unknownElement id), s)
  | some e => s.after (s.context.setValue e value s.store)

def savedState (s : Session) : List Entry := prune s.store.entries

def reset (s : Session) : Step Report := evaluate { s with store := .empty }

def verdict (s : Session) : Except SessionError Verdict :=
  match s.activeRuleSet? with
  | none => .ok .undecided
  | some r => (ScoreSheet.verdict r s.sheet.elements s.store s.limits).mapError .rule

end Session

end ScoreSheet
