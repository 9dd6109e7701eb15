import ScoreSheet.Sheet.Basic
set_option autoImplicit false

namespace ScoreSheet

inductive Warning where
  /-- The last allowed pass still changed the state. -/
  | unsettled (ruleSet : String) (passes : Nat)
  /-- The rule of an element belongs to no rule set of the sheet. -/
  | unknownRuleSet (index : Nat) (id ruleSet : String)
  /-- A custom function has the name of a built-in one. -/
  | hidesBuiltin (index : Nat) (function : String)
  /-- An element that is no options element declares options. -/
  | unusedOptions (index : Nat) (id : String) (kind : ElementKind)
deriving DecidableEq

namespace Warning

def code : Warning → String
  | unsettled .. => "W-RECURSION"
  | unknownRuleSet .. => "W-001"
  | hidesBuiltin .. => "W-002"
  | unusedOptions .. => "W-003"

def path : Warning → String
  | unsettled ruleSet _ => s!"ruleSets[{ruleSet}]"
  | unknownRuleSet i _ ruleSet => s!"elements[{i}].rules.{ruleSet}"
  | hidesBuiltin i function => s!"ruleSets[{i}].customFunctions.{function}"
  | unusedOptions i _ _ => s!"elements[{i}].options"

def message : Warning → String
  | unsettled _ passes =>
    s!"rules still changed state after {passes} passes; stopped at the latest state"
  | unknownRuleSet _ id ruleSet =>
    s!"rule of element '{id}' names unknown ruleset '{ruleSet}'"
  | hidesBuiltin _ function =>
    s!"custom function '{function}' shadows the built-in of the same name"
  | unusedOptions _ id kind => s!"options are ignored on {kind.name} element '{id}'"

end Warning

end ScoreSheet
