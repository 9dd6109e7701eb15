import ScoreSheet.Evaluation.Program
import ScoreSheet.Warning
set_option autoImplicit false

/-! A sheet is checked against eight rules. All violations are reported, grouped by
rule and in the order of the sheet within a group; nothing is run. -/
namespace ScoreSheet

open Rule

inductive Dimension where
  | width | height
deriving DecidableEq

def Dimension.name : Dimension → String
  | width => "width"
  | height => "height"

/-- A place of a sheet that breaks a rule. Indices are those of the elements or of
the rule sets. -/
inductive Violation where
  | emptyId (index : Nat)
  | repeatedId (index : Nat) (id : String)
  | emptyRuleSetName (index : Nat)
  | repeatedRuleSetName (index : Nat) (name : String)
  | noOptions (index : Nat) (id : String)
  | badFunction (index : Nat) (name : String) (e : CompilationError)
  | badRule (index : Nat) (ruleSet : String) (e : CompilationError)
  | badCondition (index : Nat) (condition : String) (e : CompilationError)
  | badSize (index : Nat) (dimension : Dimension) (value : Float)
deriving DecidableEq

namespace Violation

def code : Violation → String
  | emptyId _ | repeatedId .. => "V-001"
  | emptyRuleSetName _ | repeatedRuleSetName .. => "V-002"
  | noOptions .. => "V-003"
  | badFunction _ _ e =>
    match e.fault with
    | .invalidName | .reservedName => "V-004"
    | _ => "V-005"
  | badRule .. => "V-006"
  | badCondition .. => "V-007"
  | badSize .. => "V-008"

def path : Violation → String
  | emptyId i | repeatedId i _ => s!"elements[{i}].id"
  | emptyRuleSetName i | repeatedRuleSetName i _ => s!"ruleSets[{i}].name"
  | noOptions i _ => s!"elements[{i}].options"
  | badFunction i name _ => s!"ruleSets[{i}].customFunctions.{name}"
  | badRule i ruleSet _ => s!"elements[{i}].rules.{ruleSet}"
  | badCondition i condition _ => s!"ruleSets[{i}].{condition}"
  | badSize i d _ => s!"elements[{i}].size.{d.name}"

def detail : Violation → String
  | emptyId _ => "element id must not be empty"
  | repeatedId _ id => s!"duplicate element id: {id}"
  | emptyRuleSetName _ => "ruleset name must not be empty"
  | repeatedRuleSetName _ name => s!"duplicate ruleset name: {name}"
  | noOptions _ id => s!"options element {inQuotes id} must declare at least one option"
  | badFunction _ _ e | badRule _ _ e | badCondition _ _ e => e.message
  | badSize _ d x =>
    s!"{d.name} must be a finite, non-negative number, got {Number.plain x}"

def message (v : Violation) : String := s!"{v.code} at {v.path}: {v.detail}"

end Violation

structure Findings where
  violations : List Violation
  warnings : List Warning

namespace Findings

def empty : Findings := ⟨[], []⟩

def append (a b : Findings) : Findings :=
  ⟨a.violations ++ b.violations, a.warnings ++ b.warnings⟩

def isValid (f : Findings) : Bool := f.violations.isEmpty

def violation (v : Violation) : Findings := ⟨[v], []⟩

def warning (w : Warning) : Findings := ⟨[], [w]⟩

def onEach {α : Type} (check : Nat → α → Findings) (xs : List α) : Findings :=
  xs.zipIdx.foldl (fun f (x, i) => f.append (check i x)) empty

def ofResult {ε α : Type} (f : ε → Violation) : Except ε α → Findings
  | .ok _ => empty
  | .error e => violation (f e)

end Findings

namespace Validation

open Findings

/-- Checks that names are neither empty nor repeated. An empty name repeats none. -/
def uniqueNames (empty : Nat → Violation) (repeated : Nat → String → Violation)
    (names : List String) : Findings :=
  onEach (fun i name =>
    if name.isEmpty then violation (empty i)
    else if (names.take i).contains name then violation (repeated i name)
    else Findings.empty) names

def checkOptions (i : Nat) (e : Element) : Findings :=
  if e.kind = .options then
    if (e.options.getD []).isEmpty then violation (.noOptions i e.id) else Findings.empty
  else if e.options.isSome then warning (.unusedOptions i e.id e.kind)
  else Findings.empty

def checkFunction (i : Nat) (name : String) (source : FunctionSource) : Findings :=
  match compileFunction name source with
  | .error e => violation (.badFunction i name e)
  | .ok _ => if isBuiltin name then warning (.hidesBuiltin i name) else Findings.empty

def checkFunctions (i : Nat) (r : RuleSet) : Findings :=
  onEach (fun _ (name, source) => checkFunction i name source) r.functions

def checkRule (known : List String) (i : Nat) (e : Element) (ruleSet source : String) :
    Findings :=
  let unknown :=
    if known.contains ruleSet then Findings.empty else warning (.unknownRuleSet i e.id ruleSet)
  unknown.append (ofResult (.badRule i ruleSet) (compileRule e.id source))

def checkRules (known : List String) (i : Nat) (e : Element) : Findings :=
  onEach (fun _ (ruleSet, source) => checkRule known i e ruleSet source) e.rules

def checkCondition (i : Nat) (name : String) (source : Option String) : Findings :=
  ofResult (.badCondition i name) (compileCondition name source)

def checkConditions (i : Nat) (r : RuleSet) : Findings :=
  (checkCondition i "winCondition" r.winCondition).append
    (checkCondition i "loseCondition" r.loseCondition)

def checkDimension (i : Nat) (d : Dimension) (x : Float) : Findings :=
  if Number.isFinite x && !decide (x < 0.0) then Findings.empty else violation (.badSize i d x)

def checkSize (i : Nat) (e : Element) : Findings :=
  (checkDimension i .width e.size.width).append (checkDimension i .height e.size.height)

end Validation

open Validation in
def Sheet.validate (sheet : Sheet) : Findings :=
  let ruleSets := sheet.allRuleSets
  let known := ruleSets.map (·.name)
  (uniqueNames .emptyId .repeatedId (sheet.elements.map (·.id)))
    |>.append (uniqueNames .emptyRuleSetName .repeatedRuleSetName known)
    |>.append (Findings.onEach checkOptions sheet.elements)
    |>.append (Findings.onEach checkFunctions ruleSets)
    |>.append (Findings.onEach (checkRules known) sheet.elements)
    |>.append (Findings.onEach checkConditions ruleSets)
    |>.append (Findings.onEach checkSize sheet.elements)

end ScoreSheet
