import Mathlib.Data.List.Forall2
import Mathlib.Data.List.Induction
import ScoreSheet.Proofs.Number.Order
import ScoreSheet.Proofs.Validation.Compilation
import ScoreSheet.Proofs.Validation.Sites
set_option autoImplicit false

/-! Validation finds one violation at every site that breaks a rule and none elsewhere, in the
order of the sites. Accounts of violations are put together as the checks are: item by item
along a list, and list by list. -/
namespace ScoreSheet

open Rule

/-- Whether violations are those of the broken sites of a region, one for each in their order. -/
def Sheet.Accounts (sheet : Sheet) (region : Site → Prop) (vs : List Violation) : Prop :=
  ∃ sites : List Site, sites.Pairwise Site.Before ∧
    (∀ s, s ∈ sites ↔ region s ∧ sheet.Broken s) ∧
    List.Forall₂ (fun s v => sheet.Breaks s v.code v.path) sites vs

namespace Sheet.Accounts
variable {sheet : Sheet} {region other : Site → Prop} {vs ws : List Violation}

theorem congr (h : sheet.Accounts region vs)
    (same : ∀ s, sheet.Broken s → (region s ↔ other s)) : sheet.Accounts other vs := by
  obtain ⟨sites, ordered, found, reported⟩ := h
  exact ⟨sites, ordered, fun s => (found s).trans (and_congr_left (same s)), reported⟩

protected theorem nil (intact : ∀ s, region s → ¬ sheet.Broken s) : sheet.Accounts region [] :=
  ⟨[], .nil, fun s => iff_of_false List.not_mem_nil fun h => intact s h.1 h.2, .nil⟩

protected theorem none {site : Site} (intact : ¬ sheet.Broken site) :
    sheet.Accounts (fun s => s = site) [] :=
  .nil fun _ same => same ▸ intact

protected theorem one {site : Site} {v : Violation}
    (broken : sheet.Breaks site v.code v.path) : sheet.Accounts (fun s => s = site) [v] := by
  refine ⟨[site], List.pairwise_singleton _ _, fun s => ?_, .cons broken .nil⟩
  rw [List.mem_singleton]
  exact ⟨fun same => ⟨same, same ▸ ⟨_, _, broken⟩⟩, And.left⟩

protected theorem append (h : sheet.Accounts region vs) (k : sheet.Accounts other ws)
    (before : ∀ s t, region s → other t → s.Before t) :
    sheet.Accounts (fun s => region s ∨ other s) (vs ++ ws) := by
  obtain ⟨sites, ordered, found, reported⟩ := h
  obtain ⟨sites', ordered', found', reported'⟩ := k
  refine ⟨sites ++ sites', List.pairwise_append.2 ⟨ordered, ordered', fun s hs t ht => ?_⟩,
    fun s => ?_, List.rel_append reported reported'⟩
  · exact before s t ((found s).1 hs).1 ((found' t).1 ht).1
  · rw [List.mem_append, found s, found' s, or_and_right]

section Lists
variable {α : Type} {check : Nat → α → Findings} {xs : List α} {g i : Nat}

theorem onEach (place : Site → Nat)
    (ordered : ∀ s t, region s → region t → place s < place t → s.Before t)
    (each : ∀ i x, xs[i]? = some x →
      sheet.Accounts (fun s => region s ∧ place s = i) (check i x).violations) :
    sheet.Accounts (fun s => region s ∧ place s < xs.length)
      (Findings.onEach check xs).violations := by
  induction xs using List.reverseRecOn with
  | nil => exact .nil fun s h => absurd h.2 (Nat.not_lt_zero _)
  | append_singleton xs x ih =>
    have earlier := ih fun i y hi => each i y (by
      rw [List.getElem?_append_left (List.getElem?_eq_some_iff.1 hi).1, hi])
    have last := each xs.length x (by simp)
    have whole : (Findings.onEach check (xs ++ [x])).violations =
        (Findings.onEach check xs).violations ++ (check xs.length x).violations := by
      simp [Findings.onEach_violations, List.zipIdx_append]
    rw [whole, List.length_append, List.length_singleton]
    refine (earlier.append last fun s t hs ht => ordered s t hs.1 ht.1 (ht.2 ▸ hs.2)).congr
      fun s _ => ?_
    rw [← and_or_left, Nat.lt_succ_iff_lt_or_eq]

/-- A group of sites is accounted for index by index. -/
theorem indexed (each : ∀ i x, xs[i]? = some x →
      sheet.Accounts (fun s => s.group = g ∧ s.index = i) (check i x).violations)
    (inside : ∀ s, sheet.Broken s → s.group = g → s.index < xs.length) :
    sheet.Accounts (fun s => s.group = g) (Findings.onEach check xs).violations := by
  refine (onEach Site.index (fun s t hs ht less => ?_) each).congr fun s hs => ?_
  · exact .inr ⟨hs.trans ht.symm, .inl less⟩
  · exact and_iff_left_of_imp (inside s hs)

/-- The sites of one element or rule set are accounted for part by part. -/
theorem parts (each : ∀ j x, xs[j]? = some x →
      sheet.Accounts (fun s => (s.group = g ∧ s.index = i) ∧ s.part = j) (check j x).violations)
    (inside : ∀ s, sheet.Broken s → s.group = g → s.index = i → s.part < xs.length) :
    sheet.Accounts (fun s => s.group = g ∧ s.index = i)
      (Findings.onEach check xs).violations := by
  refine (onEach Site.part (fun s t hs ht less => ?_) each).congr fun s hs => ?_
  · exact .inr ⟨hs.1.trans ht.1.symm, .inr ⟨hs.2.trans ht.2.symm, less⟩⟩
  · exact and_iff_left_of_imp fun h => inside s hs h.1 h.2

end Lists

end Sheet.Accounts

theorem compileFunction_isOk {name : String} {source : FunctionSource} :
    (∃ f, compileFunction name source = .ok f) ↔ Declarable name ∧ source.Parses := by
  simp only [compileFunction_ok]
  constructor
  · rintro ⟨f, declarable, p, body, parameters, once, parsed, -⟩
    exact ⟨declarable, p, body, parameters, once, parsed⟩
  · rintro ⟨declarable, p, body, parameters, once, parsed⟩
    exact ⟨_, declarable, p, body, parameters, once, parsed, rfl⟩

/-- A bad name is reported as such, whatever else is wrong with the function. -/
theorem compileFunction_code {name : String} {source : FunctionSource} {e : CompilationError}
    (h : compileFunction name source = .error e) (i : Nat) :
    (Declarable name → (Violation.badFunction i name e).code = "V-005") ∧
      (¬ Declarable name → (Violation.badFunction i name e).code = "V-004") := by
  unfold Declarable
  unfold compileFunction at h
  repeat' split at h
  all_goals cases h
  all_goals simp_all [Violation.code]

theorem compileRule_isOk (id : String) {source : String} :
    (∃ rule, compileRule id source = .ok rule) ↔ RuleParses source := by
  unfold compileRule RuleParses
  cases parseRule source <;> simp [Except.mapError]

namespace Sheet
variable {sheet : Sheet} {i j : Nat}

theorem accounts_name {names : List String} {site : Nat → Site} {empty : Nat → Violation}
    {repeated : Nat → String → Violation}
    (broken : ∀ i, sheet.Broken (site i) ↔ BadName names i)
    (of_empty : ∀ i, BadName names i → sheet.Breaks (site i) (empty i).code (empty i).path)
    (of_repeated : ∀ i n, BadName names i →
      sheet.Breaks (site i) (repeated i n).code (repeated i n).path)
    {n : String} (hn : names[i]? = some n) :
    sheet.Accounts (fun s => s = site i)
      (if n.isEmpty then Findings.violation (empty i)
        else if (names.take i).contains n then Findings.violation (repeated i n)
        else Findings.empty).violations := by
  by_cases blank : n = ""
  · rw [if_pos (by simp [blank])]
    exact .one (of_empty i ⟨n, hn, .inl blank⟩)
  · rw [if_neg (by simp [blank])]
    by_cases before : n ∈ names.take i
    · rw [if_pos (by simp [before])]
      exact .one (of_repeated i n ⟨n, hn, .inr before⟩)
    · rw [if_neg (by simp [before])]
      refine .none fun h => ?_
      obtain ⟨m, hm, bad⟩ := (broken i).1 h
      cases hn.symm.trans hm
      exact bad.elim blank before

theorem accounts_option {e : Element} (he : sheet.elements[i]? = some e) :
    sheet.Accounts (fun s => s = .options i) (Validation.checkOptions i e).violations := by
  have broken := broken_options he
  unfold Validation.checkOptions
  split
  · rename_i kind
    rcases options : e.options with _ | _ | ⟨d, ds⟩
    · exact .one (.options he kind (.inl options))
    · exact .one (.options he kind (.inr options))
    · exact .none (by simp [broken, options])
  · rename_i other
    have nothing : sheet.Accounts (fun s => s = .options i) [] := .none (by simp [broken, other])
    split <;> exact nothing

theorem accounts_function {r : RuleSet} (hr : sheet.allRuleSets[i]? = some r) {name : String}
    {source : FunctionSource} (hf : r.functions[j]? = some (name, source)) :
    sheet.Accounts (fun s => s = .function i j)
      (Validation.checkFunction i name source).violations := by
  have broken := broken_function hr hf
  rw [← compileFunction_isOk] at broken
  unfold Validation.checkFunction
  cases compiled : compileFunction name source with
  | ok f =>
    have nothing : sheet.Accounts (fun s => s = .function i j) [] :=
      .none (by simp [broken, compiled])
    dsimp only
    split <;> exact nothing
  | error e =>
    obtain ⟨in_source, in_name⟩ := compileFunction_code compiled i
    refine .one ?_
    by_cases declarable : Declarable name
    · rw [in_source declarable]
      refine .functionSource hr hf declarable fun parses => ?_
      obtain ⟨f, ok⟩ := compileFunction_isOk.2 ⟨declarable, parses⟩
      cases compiled.symm.trans ok
    · rw [in_name declarable]
      exact .functionName hr hf declarable

/-- An unknown rule set is worth a warning and hides no violation. -/
theorem accounts_rule (known : List String) {e : Element} (he : sheet.elements[i]? = some e)
    {ruleSet source : String} (hs : e.rules[j]? = some (ruleSet, source)) :
    sheet.Accounts (fun s => s = .rule i j)
      (Validation.checkRule known i e ruleSet source).violations := by
  have broken := broken_rule he hs
  rw [← compileRule_isOk e.id] at broken
  have found : (Validation.checkRule known i e ruleSet source).violations =
      (Findings.ofResult (.badRule i ruleSet) (compileRule e.id source)).violations := by
    unfold Validation.checkRule
    dsimp only
    split <;> rfl
  rw [found]
  cases compiled : compileRule e.id source with
  | ok rule => exact .none (by simp [broken, compiled])
  | error err =>
    refine .one (.rule he hs fun parses => ?_)
    obtain ⟨rule, ok⟩ := (compileRule_isOk e.id).2 parses
    cases compiled.symm.trans ok

theorem accounts_condition {r : RuleSet} (hr : sheet.allRuleSets[i]? = some r)
    (ending : Ending) : sheet.Accounts (fun s => s = .condition i ending)
      (Validation.checkCondition i ending.name (ending.source? r)).violations := by
  have broken := broken_condition hr ending
  unfold Validation.checkCondition compileCondition
  cases hs : ending.source? r with
  | none => exact .none (by simp [broken, hs])
  | some source =>
    dsimp only
    cases read : parseRule source with
    | ok rule => exact .none (by simp [broken, hs, RuleParses, read])
    | error err =>
      refine .one (.condition hr hs fun ⟨rule, ok⟩ => ?_)
      cases read.symm.trans ok

theorem accounts_dimension {e : Element} (he : sheet.elements[i]? = some e) (d : Dimension) :
    sheet.Accounts (fun s => s = .size i d)
      (Validation.checkDimension i d (d.of e.size)).violations := by
  have broken := broken_size (d := d) he
  have fits : Dimension.Fits (d.of e.size) ↔
      Number.isFinite (d.of e.size) && !decide (d.of e.size < 0.0) := by
    rw [Bool.and_eq_true, Bool.not_eq_true', decide_eq_false_iff_not]
    refine and_congr_right fun finite => ?_
    exact Number.le_iff_not_lt (by decide) (Number.isNaN_of_isFinite finite)
  unfold Validation.checkDimension
  split
  · rename_i h
    exact .none (by simpa only [broken, fits, not_not] using h)
  · rename_i h
    exact .one (.size he (by rwa [fits]))

theorem index_lt {s : Site} (h : sheet.Broken s) :
    (s.group = 3 ∨ s.group = 6 ∨ s.group = 8 → s.index < sheet.elements.length) ∧
      (s.group = 4 ∨ s.group = 7 → s.index < sheet.allRuleSets.length) := by
  obtain ⟨_, _, broken⟩ := h
  cases broken with
  | elementId | ruleSetName => simp
  | options he | rule he | size he => simp [(List.getElem?_eq_some_iff.1 he).1]
  | functionName hr | functionSource hr | condition hr =>
    simp [(List.getElem?_eq_some_iff.1 hr).1]

theorem accounts_uniqueNames {names : List String} {g : Nat} (site : Nat → Site)
    {empty : Nat → Violation} {repeated : Nat → String → Violation}
    (only : ∀ i s, s = site i ↔ s.group = g ∧ s.index = i)
    (broken : ∀ i, sheet.Broken (site i) ↔ BadName names i)
    (of_empty : ∀ i, BadName names i → sheet.Breaks (site i) (empty i).code (empty i).path)
    (of_repeated : ∀ i n, BadName names i →
      sheet.Breaks (site i) (repeated i n).code (repeated i n).path) :
    sheet.Accounts (fun s => s.group = g)
      (Validation.uniqueNames empty repeated names).violations := by
  refine .indexed (fun i n hn => ?_) fun s hs group => ?_
  · exact (accounts_name broken of_empty of_repeated hn).congr fun s _ => only i s
  · rw [(only s.index s).2 ⟨group, rfl⟩, broken] at hs
    obtain ⟨n, hn, -⟩ := hs
    exact (List.getElem?_eq_some_iff.1 hn).1

theorem accounts_options : sheet.Accounts (fun s => s.group = 3)
    (Findings.onEach Validation.checkOptions sheet.elements).violations := by
  refine .indexed (fun i e he => ?_) fun s hs group => (index_lt hs).1 (.inl group)
  exact (accounts_option he).congr fun s _ => by cases s <;> simp

theorem accounts_functions : sheet.Accounts (fun s => s.group = 4)
    (Findings.onEach Validation.checkFunctions sheet.allRuleSets).violations := by
  refine .indexed (fun i r hr => ?_) fun s hs group => (index_lt hs).2 (.inl group)
  refine .parts (fun j f hf => ?_) ?_
  · exact (accounts_function hr hf).congr fun s _ => by cases s <;> simp
  · rintro s ⟨_, _, broken⟩ group rfl
    cases broken with
    | functionName hr' hf | functionSource hr' hf =>
      cases hr.symm.trans hr'
      exact (List.getElem?_eq_some_iff.1 hf).1
    | _ => cases group

theorem accounts_rules (known : List String) : sheet.Accounts (fun s => s.group = 6)
    (Findings.onEach (Validation.checkRules known) sheet.elements).violations := by
  refine .indexed (fun i e he => ?_) fun s hs group => (index_lt hs).1 (.inr (.inl group))
  refine .parts (fun j rule hs => ?_) ?_
  · exact (accounts_rule known he hs).congr fun s _ => by cases s <;> simp
  · rintro s ⟨_, _, broken⟩ group rfl
    cases broken with
    | rule he' hs =>
      cases he.symm.trans he'
      exact (List.getElem?_eq_some_iff.1 hs).1
    | _ => cases group

theorem accounts_conditions : sheet.Accounts (fun s => s.group = 7)
    (Findings.onEach Validation.checkConditions sheet.allRuleSets).violations := by
  refine .indexed (fun i r hr => ?_) fun s hs group => (index_lt hs).2 (.inr group)
  refine ((accounts_condition hr .win).append (accounts_condition hr .lose) ?_).congr
    fun s _ => ?_
  · rintro _ _ rfl rfl
    simp [Site.Before]
  · rcases s with _ | _ | _ | _ | _ | ⟨_, _ | _⟩ | _ <;> simp

theorem accounts_sizes : sheet.Accounts (fun s => s.group = 8)
    (Findings.onEach Validation.checkSize sheet.elements).violations := by
  refine .indexed (fun i e he => ?_) fun s hs group => (index_lt hs).1 (.inr (.inr group))
  refine ((accounts_dimension he .width).append (accounts_dimension he .height) ?_).congr
    fun s _ => ?_
  · rintro _ _ rfl rfl
    simp [Site.Before]
  · rcases s with _ | _ | _ | _ | _ | _ | ⟨_, _ | _⟩ <;> simp

theorem accounts_validate (sheet : Sheet) :
    sheet.Accounts (fun _ => True) sheet.validate.violations := by
  have ids : sheet.Accounts (fun s => s.group = 1)
      (Validation.uniqueNames .emptyId .repeatedId (sheet.elements.map (·.id))).violations :=
    accounts_uniqueNames .elementId (fun i s => by cases s <;> simp)
      (fun _ => broken_elementId) (fun _ => .elementId) fun _ _ => .elementId
  have names : sheet.Accounts (fun s => s.group = 2) (Validation.uniqueNames .emptyRuleSetName
      .repeatedRuleSetName (sheet.allRuleSets.map (·.name))).violations :=
    accounts_uniqueNames .ruleSetName (fun i s => by cases s <;> simp)
      (fun _ => broken_ruleSetName) (fun _ => .ruleSetName) fun _ _ => .ruleSetName
  rw [validate_violations]
  refine ((((((ids.append names ?_).append accounts_options ?_).append accounts_functions
    ?_).append (accounts_rules _) ?_).append accounts_conditions ?_).append accounts_sizes
      ?_).congr fun s _ => ?_
  case refine_7 => cases s <;> simp
  all_goals exact fun s t hs ht => .inl (by omega)

/-- Validation finds nothing in a valid sheet only. Otherwise the violations are those of the
broken sites, one for each: with the code of the rule that it breaks and its path, ordered by
the group of the site, then by the index of the element or rule set, then by the part of it. -/
theorem validate_exact (sheet : Sheet) :
    (sheet.validate.violations = [] ↔ sheet.Valid) ∧
    ∃ sites : List Site, sites.Pairwise Site.Before ∧ (∀ s, s ∈ sites ↔ sheet.Broken s) ∧
      List.Forall₂ (fun s v => sheet.Breaks s v.code v.path) sites
        sheet.validate.violations := by
  obtain ⟨sites, ordered, found, reported⟩ := accounts_validate sheet
  simp only [true_and] at found
  refine ⟨?_, sites, ordered, found, reported⟩
  rw [valid_iff, ← List.length_eq_zero_iff, ← reported.length_eq, List.length_eq_zero_iff,
    List.eq_nil_iff_forall_not_mem]
  exact forall_congr' fun s => not_congr (found s)

example :
    let e (height : Float) : Element := ⟨"a", .checkbox, ⟨0.0, 0.0⟩, ⟨8.0, height⟩, none, []⟩
    let sheet : Sheet := ⟨"two", ⟨1, 0, 0⟩, none, [e (-1.0), e 8.0], none⟩
    sheet.validate.violations = [.repeatedId 1 "a", .badSize 0 .height (-1.0)] := by
  decide

end Sheet

end ScoreSheet
