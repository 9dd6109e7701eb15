import Mathlib.Data.List.Nodup
import ScoreSheet.Proofs.Rule.Callable
import ScoreSheet.Validation
set_option autoImplicit false

namespace ScoreSheet

open Rule

inductive Ending where
  | win | lose

namespace Ending

def name : Ending → String
  | win => "winCondition"
  | lose => "loseCondition"

def source? (r : RuleSet) : Ending → Option String
  | win => r.winCondition
  | lose => r.loseCondition

end Ending

def Dimension.of (size : Size) : Dimension → Float
  | width => size.width
  | height => size.height

/-- A place that is checked: where in the list of elements or rule sets, and what of it. -/
inductive Site where
  | elementId (index : Nat)
  | ruleSetName (index : Nat)
  | options (index : Nat)
  | function (index place : Nat)
  | rule (index place : Nat)
  | condition (index : Nat) (ending : Ending)
  | size (index : Nat) (dimension : Dimension)

namespace Site

/-- Sites are grouped by the rules that they can break, which share a number for functions. -/
@[simp] def group : Site → Nat
  | elementId _ => 1
  | ruleSetName _ => 2
  | options _ => 3
  | function .. => 4
  | rule .. => 6
  | condition .. => 7
  | size .. => 8

@[simp] def index : Site → Nat
  | elementId i | ruleSetName i | options i | function i _ | rule i _ | condition i _
  | size i _ => i

@[simp] def part : Site → Nat
  | function _ j | rule _ j => j
  | condition _ .lose | size _ .height => 1
  | _ => 0

/-- The order of sites: by group, then by element or rule set, then by the part of it. -/
def Before (s t : Site) : Prop :=
  s.group < t.group ∨ s.group = t.group ∧
    (s.index < t.index ∨ s.index = t.index ∧ s.part < t.part)

end Site

/-- Whether the name at an index is empty, or stands at an earlier index as well. -/
def BadName (names : List String) (i : Nat) : Prop :=
  ∃ name, names[i]? = some name ∧ (name = "" ∨ name ∈ names.take i)

def FunctionSource.Parses (source : FunctionSource) : Prop :=
  ∃ p body, parseParameters source.parameters = .ok p ∧ p.all.Nodup ∧
    parseBody source.body = .ok body

def RuleParses (source : String) : Prop := ∃ rule, parseRule source = .ok rule

def Dimension.Fits (x : Float) : Prop := Number.isFinite x ∧ 0.0 ≤ x

namespace Sheet

/-- Whether a site of the sheet breaks a rule, with the code of the rule and the path of the
site. -/
inductive Breaks (sheet : Sheet) : Site → String → String → Prop where
  | elementId {i : Nat} (bad : BadName (sheet.elements.map (·.id)) i) :
      Breaks sheet (.elementId i) "V-001" s!"elements[{i}].id"
  | ruleSetName {i : Nat} (bad : BadName (sheet.allRuleSets.map (·.name)) i) :
      Breaks sheet (.ruleSetName i) "V-002" s!"ruleSets[{i}].name"
  | options {i : Nat} {e : Element} (he : sheet.elements[i]? = some e) (kind : e.kind = .options)
      (bad : e.options = none ∨ e.options = some []) :
      Breaks sheet (.options i) "V-003" s!"elements[{i}].options"
  | functionName {i j : Nat} {r : RuleSet} {name : String} {source : FunctionSource}
      (hr : sheet.allRuleSets[i]? = some r) (hf : r.functions[j]? = some (name, source))
      (bad : ¬ Declarable name) :
      Breaks sheet (.function i j) "V-004" s!"ruleSets[{i}].customFunctions.{name}"
  | functionSource {i j : Nat} {r : RuleSet} {name : String} {source : FunctionSource}
      (hr : sheet.allRuleSets[i]? = some r) (hf : r.functions[j]? = some (name, source))
      (declarable : Declarable name) (bad : ¬ source.Parses) :
      Breaks sheet (.function i j) "V-005" s!"ruleSets[{i}].customFunctions.{name}"
  | rule {i j : Nat} {e : Element} {ruleSet source : String}
      (he : sheet.elements[i]? = some e) (hs : e.rules[j]? = some (ruleSet, source))
      (bad : ¬ RuleParses source) :
      Breaks sheet (.rule i j) "V-006" s!"elements[{i}].rules.{ruleSet}"
  | condition {i : Nat} {r : RuleSet} {ending : Ending} {source : String}
      (hr : sheet.allRuleSets[i]? = some r) (hs : ending.source? r = some source)
      (bad : ¬ RuleParses source) :
      Breaks sheet (.condition i ending) "V-007" s!"ruleSets[{i}].{ending.name}"
  | size {i : Nat} {e : Element} {d : Dimension} (he : sheet.elements[i]? = some e)
      (bad : ¬ Dimension.Fits (d.of e.size)) :
      Breaks sheet (.size i d) "V-008" s!"elements[{i}].size.{d.name}"

def Broken (sheet : Sheet) (s : Site) : Prop := ∃ code path, sheet.Breaks s code path

/-- What the rules ask for, of the sheet as a whole. -/
structure Valid (sheet : Sheet) : Prop where
  ids : ∀ e ∈ sheet.elements, e.id ≠ ""
  ids_distinct : (sheet.elements.map (·.id)).Nodup
  names : ∀ r ∈ sheet.allRuleSets, r.name ≠ ""
  names_distinct : (sheet.allRuleSets.map (·.name)).Nodup
  options : ∀ e ∈ sheet.elements, e.kind = .options → ∃ d ds, e.options = some (d :: ds)
  functions : ∀ r ∈ sheet.allRuleSets, ∀ name source, (name, source) ∈ r.functions →
    Declarable name ∧ source.Parses
  rules : ∀ e ∈ sheet.elements, ∀ ruleSet source, (ruleSet, source) ∈ e.rules →
    RuleParses source
  conditions : ∀ r ∈ sheet.allRuleSets, ∀ ending : Ending, ∀ source ∈ ending.source? r,
    RuleParses source
  sizes : ∀ e ∈ sheet.elements, ∀ d : Dimension, Dimension.Fits (d.of e.size)

variable {sheet : Sheet} {i j : Nat}

theorem broken_elementId :
    sheet.Broken (.elementId i) ↔ BadName (sheet.elements.map (·.id)) i :=
  ⟨fun ⟨_, _, .elementId bad⟩ => bad, fun bad => ⟨_, _, .elementId bad⟩⟩

theorem broken_ruleSetName :
    sheet.Broken (.ruleSetName i) ↔ BadName (sheet.allRuleSets.map (·.name)) i :=
  ⟨fun ⟨_, _, .ruleSetName bad⟩ => bad, fun bad => ⟨_, _, .ruleSetName bad⟩⟩

section Elements
variable {e : Element} (he : sheet.elements[i]? = some e)
include he

theorem broken_options : sheet.Broken (.options i) ↔
    e.kind = .options ∧ (e.options = none ∨ e.options = some []) := by
  constructor
  · intro ⟨_, _, .options he' kind bad⟩
    cases he.symm.trans he'
    exact ⟨kind, bad⟩
  · exact fun ⟨kind, bad⟩ => ⟨_, _, .options he kind bad⟩

theorem broken_rule {ruleSet source : String} (hs : e.rules[j]? = some (ruleSet, source)) :
    sheet.Broken (.rule i j) ↔ ¬ RuleParses source := by
  constructor
  · intro ⟨_, _, .rule he' hs' bad⟩
    cases he.symm.trans he'
    cases hs.symm.trans hs'
    exact bad
  · exact fun bad => ⟨_, _, .rule he hs bad⟩

theorem broken_size {d : Dimension} :
    sheet.Broken (.size i d) ↔ ¬ Dimension.Fits (d.of e.size) := by
  constructor
  · intro ⟨_, _, .size he' bad⟩
    cases he.symm.trans he'
    exact bad
  · exact fun bad => ⟨_, _, .size he bad⟩

end Elements

section RuleSets
variable {r : RuleSet} (hr : sheet.allRuleSets[i]? = some r)
include hr

theorem broken_function {name : String} {source : FunctionSource}
    (hf : r.functions[j]? = some (name, source)) :
    sheet.Broken (.function i j) ↔ ¬ (Declarable name ∧ source.Parses) := by
  constructor
  · rintro ⟨_, _, broken⟩
    cases broken with
    | functionName hr' hf' bad =>
      cases hr.symm.trans hr'
      cases hf.symm.trans hf'
      exact fun h => bad h.1
    | functionSource hr' hf' _ bad =>
      cases hr.symm.trans hr'
      cases hf.symm.trans hf'
      exact fun h => bad h.2
  · intro bad
    by_cases declarable : Declarable name
    · exact ⟨_, _, .functionSource hr hf declarable fun parses => bad ⟨declarable, parses⟩⟩
    · exact ⟨_, _, .functionName hr hf declarable⟩

theorem broken_condition (ending : Ending) : sheet.Broken (.condition i ending) ↔
    ∃ source, ending.source? r = some source ∧ ¬ RuleParses source := by
  constructor
  · intro ⟨_, _, .condition hr' hs bad⟩
    cases hr.symm.trans hr'
    exact ⟨_, hs, bad⟩
  · exact fun ⟨_, hs, bad⟩ => ⟨_, _, .condition hr hs bad⟩

end RuleSets

theorem forall_not_badName {names : List String} :
    (∀ i, ¬ BadName names i) ↔ (∀ n ∈ names, n ≠ "") ∧ names.Nodup := by
  rw [List.nodup_iff_getElem?_ne_getElem?]
  constructor
  · refine fun fine => ⟨fun n hn blank => ?_, fun i j less hj same => ?_⟩
    · obtain ⟨i, hi⟩ := List.mem_iff_getElem?.1 hn
      exact fine i ⟨n, hi, .inl blank⟩
    · have here : names[j]? = some names[j] := List.getElem?_eq_getElem hj
      have earlier : (names.take j)[i]? = some names[j] := by
        rw [List.getElem?_take_of_lt less, same, here]
      exact fine j ⟨names[j], here, .inr (List.mem_of_getElem? earlier)⟩
  · rintro ⟨filled, distinct⟩ i ⟨n, hn, blank | earlier⟩
    · exact filled n (List.mem_of_getElem? hn) blank
    · obtain ⟨j, hj⟩ := List.mem_iff_getElem?.1 earlier
      have short : j < (names.take i).length := (List.getElem?_eq_some_iff.1 hj).1
      have less : j < i := by
        rw [List.length_take] at short
        omega
      rw [List.getElem?_take_of_lt less] at hj
      exact distinct j i less (List.getElem?_eq_some_iff.1 hn).1 (hj.trans hn.symm)

theorem valid_iff : sheet.Valid ↔ ∀ s, ¬ sheet.Broken s := by
  constructor
  · rintro valid s ⟨_, _, broken⟩
    cases broken with
    | elementId bad =>
      refine forall_not_badName.2 ⟨?_, valid.ids_distinct⟩ _ bad
      exact List.forall_mem_map.2 valid.ids
    | ruleSetName bad =>
      refine forall_not_badName.2 ⟨?_, valid.names_distinct⟩ _ bad
      exact List.forall_mem_map.2 valid.names
    | options he kind bad =>
      obtain ⟨d, ds, listed⟩ := valid.options _ (List.mem_of_getElem? he) kind
      simp [listed] at bad
    | functionName hr hf bad =>
      exact bad (valid.functions _ (List.mem_of_getElem? hr) _ _ (List.mem_of_getElem? hf)).1
    | functionSource hr hf _ bad =>
      exact bad (valid.functions _ (List.mem_of_getElem? hr) _ _ (List.mem_of_getElem? hf)).2
    | rule he hs bad =>
      exact bad (valid.rules _ (List.mem_of_getElem? he) _ _ (List.mem_of_getElem? hs))
    | condition hr hs bad => exact bad (valid.conditions _ (List.mem_of_getElem? hr) _ _ hs)
    | size he bad => exact bad (valid.sizes _ (List.mem_of_getElem? he) _)
  · intro intact
    obtain ⟨ids, ids_distinct⟩ :=
      forall_not_badName.1 fun i => mt broken_elementId.2 (intact (.elementId i))
    obtain ⟨names, names_distinct⟩ :=
      forall_not_badName.1 fun i => mt broken_ruleSetName.2 (intact (.ruleSetName i))
    constructor
    case ids => exact fun e he => ids e.id (List.mem_map_of_mem he)
    case ids_distinct => exact ids_distinct
    case names => exact fun r hr => names r.name (List.mem_map_of_mem hr)
    case names_distinct => exact names_distinct
    case options =>
      intro e he kind
      obtain ⟨i, hi⟩ := List.mem_iff_getElem?.1 he
      have listed := mt (broken_options hi).2 (intact (.options i))
      rcases options : e.options with _ | _ | ⟨d, ds⟩
      · exact absurd ⟨kind, .inl options⟩ listed
      · exact absurd ⟨kind, .inr options⟩ listed
      · exact ⟨d, ds, rfl⟩
    case functions =>
      intro r hr name source hf
      obtain ⟨i, hi⟩ := List.mem_iff_getElem?.1 hr
      obtain ⟨j, hj⟩ := List.mem_iff_getElem?.1 hf
      exact not_not.1 (mt (broken_function hi hj).2 (intact (.function i j)))
    case rules =>
      intro e he ruleSet source hs
      obtain ⟨i, hi⟩ := List.mem_iff_getElem?.1 he
      obtain ⟨j, hj⟩ := List.mem_iff_getElem?.1 hs
      exact not_not.1 (mt (broken_rule hi hj).2 (intact (.rule i j)))
    case conditions =>
      intro r hr ending source hs
      obtain ⟨i, hi⟩ := List.mem_iff_getElem?.1 hr
      by_contra bad
      exact intact (.condition i ending) ((broken_condition hi ending).2 ⟨source, hs, bad⟩)
    case sizes =>
      intro e he d
      obtain ⟨i, hi⟩ := List.mem_iff_getElem?.1 he
      exact not_not.1 (mt (broken_size hi).2 (intact (.size i d)))

end Sheet

end ScoreSheet
