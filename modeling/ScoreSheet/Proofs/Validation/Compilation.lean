import ScoreSheet.Evaluation.Verdict
import ScoreSheet.Proofs.Result
import ScoreSheet.Proofs.Validation.Findings
set_option autoImplicit false

/-! A sheet holds source text in its functions, rules and conditions. Whatever fails to
compile for a rule set or for its verdict is one of them, and validation compiles
every one of them with the same compiler. -/
namespace ScoreSheet

open Rule

inductive Sheet.Defect (sheet : Sheet) (e : CompilationError) : Prop where
  | function {r : RuleSet} {name : String} {source : FunctionSource}
      (hr : r ∈ sheet.allRuleSets) (hs : (name, source) ∈ r.functions)
      (he : compileFunction name source = .error e)
  | rule {element : Element} {ruleSet source : String} (hm : element ∈ sheet.elements)
      (hs : (ruleSet, source) ∈ element.rules) (he : compileRule element.id source = .error e)
  | winCondition {r : RuleSet} (hr : r ∈ sheet.allRuleSets)
      (he : compileCondition "winCondition" r.winCondition = .error e)
  | loseCondition {r : RuleSet} (hr : r ∈ sheet.allRuleSets)
      (he : compileCondition "loseCondition" r.loseCondition = .error e)

theorem compileFunctions_cons (name : String) (source : FunctionSource)
    (functions : Keyed FunctionSource) :
    compileFunctions ((name, source) :: functions) =
      compileFunction name source >>= fun f =>
        compileFunctions functions >>= fun fs => pure ((name, f) :: fs) := by
  unfold compileFunctions
  rw [List.mapM_cons]
  dsimp only
  cases compileFunction name source <;> rfl

theorem compileFunctions_error {functions : Keyed FunctionSource} {e : CompilationError}
    (h : compileFunctions functions = .error e) :
    ∃ name source, (name, source) ∈ functions ∧ compileFunction name source = .error e := by
  induction functions with
  | nil => cases h
  | cons f functions ih =>
    obtain ⟨name, source⟩ := f
    rw [compileFunctions_cons] at h
    rcases bind_error h with he | ⟨_, -, h⟩
    · exact ⟨name, source, List.mem_cons_self, he⟩
    · rcases bind_error h with ht | ⟨_, -, h⟩
      · obtain ⟨name', source', hm, he⟩ := ih ht
        exact ⟨name', source', List.mem_cons_of_mem _ hm, he⟩
      · cases h

theorem Program.ruleOf?_error {ruleSet : String} {element : Element} {e : CompilationError}
    (h : ruleOf? ruleSet element = .error e) :
    ∃ source, (ruleSet, source) ∈ element.rules ∧ compileRule element.id source = .error e := by
  unfold ruleOf? at h
  split at h
  · cases h
  · rename_i source hs
    refine ⟨source, ?_, ?_⟩
    · obtain ⟨before, after, he, _⟩ := List.lookup_eq_some_iff.1 hs
      rw [he]
      exact List.mem_append_right _ List.mem_cons_self
    · exact map_error h

theorem Program.rulesOf_error {ruleSet : String} {elements : List Element}
    {e : CompilationError} (h : rulesOf ruleSet elements = .error e) :
    ∃ element ∈ elements, ∃ source, (ruleSet, source) ∈ element.rules ∧
      compileRule element.id source = .error e := by
  induction elements with
  | nil => cases h
  | cons element elements ih =>
    unfold rulesOf at h
    rcases bind_error h with he | ⟨_, -, h⟩
    · exact ⟨element, List.mem_cons_self, ruleOf?_error he⟩
    · rcases bind_error h with ht | ⟨_, -, h⟩
      · obtain ⟨element', hm, hs⟩ := ih ht
        exact ⟨element', List.mem_cons_of_mem _ hm, hs⟩
      · cases h

variable {sheet : Sheet} {r : RuleSet} {e : CompilationError}

theorem defect_of_compileFunctions (hr : r ∈ sheet.allRuleSets)
    (h : compileFunctions r.functions = .error e) : sheet.Defect e := by
  obtain ⟨name, source, hs, he⟩ := compileFunctions_error h
  exact .function hr hs he

theorem defect_of_compile (hr : r ∈ sheet.allRuleSets)
    (h : Program.compile r sheet.elements = .error e) : sheet.Defect e := by
  unfold Program.compile at h
  rcases bind_error h with hf | ⟨functions, -, h⟩
  · exact defect_of_compileFunctions hr hf
  · rcases bind_error h with hs | ⟨rules, -, h⟩
    · obtain ⟨element, hm, source, hs, he⟩ := Program.rulesOf_error hs
      exact .rule hm hs he
    · cases h

/-- The elements may be any: a verdict compiles nothing of theirs. -/
theorem defect_of_verdict {elements : List Element} {store : Store} {limits : Limits}
    (hr : r ∈ sheet.allRuleSets)
    (h : verdict r elements store limits = .error (.compilation e)) : sheet.Defect e := by
  unfold verdict at h
  rcases bind_error h with hf | ⟨functions, -, h⟩
  · obtain ⟨_, hf, ⟨⟩⟩ := mapError_error hf
    exact defect_of_compileFunctions hr hf
  · rcases bind_error h with hw | ⟨win, -, h⟩
    · obtain ⟨_, hw, ⟨⟩⟩ := mapError_error hw
      exact .winCondition hr hw
    · rcases bind_error h with hl | ⟨lose, -, h⟩
      · obtain ⟨_, hl, ⟨⟩⟩ := mapError_error hl
        exact .loseCondition hr hl
      · obtain ⟨_, _, he⟩ := mapError_error h
        cases he

def compilationCodes : List String := ["V-004", "V-005", "V-006", "V-007"]

theorem badFunction_code (i : Nat) (name : String) (e : CompilationError) :
    (Violation.badFunction i name e).code ∈ compilationCodes := by
  obtain ⟨fault, subject⟩ := e
  cases fault <;> simp [Violation.code, compilationCodes]

theorem validate_violations (sheet : Sheet) :
    sheet.validate.violations =
      (Validation.uniqueNames .emptyId .repeatedId (sheet.elements.map (·.id))).violations ++
      (Validation.uniqueNames .emptyRuleSetName .repeatedRuleSetName
        (sheet.allRuleSets.map (·.name))).violations ++
      (Findings.onEach Validation.checkOptions sheet.elements).violations ++
      (Findings.onEach Validation.checkFunctions sheet.allRuleSets).violations ++
      (Findings.onEach (Validation.checkRules (sheet.allRuleSets.map (·.name)))
        sheet.elements).violations ++
      (Findings.onEach Validation.checkConditions sheet.allRuleSets).violations ++
      (Findings.onEach Validation.checkSize sheet.elements).violations := rfl

/-- Validation reports every defect under one of the codes for it. -/
theorem Sheet.Defect.reported (h : sheet.Defect e) :
    ∃ v ∈ sheet.validate.violations, v.code ∈ compilationCodes := by
  simp only [validate_violations, List.mem_append]
  cases h with
  | @function r name source hr hs he =>
    obtain ⟨i, hi⟩ := Findings.exists_mem_onEach Validation.checkFunctions hr
    obtain ⟨j, hj⟩ := Findings.exists_mem_onEach
      (fun _ (f : String × FunctionSource) => Validation.checkFunction i f.1 f.2) hs
    refine ⟨.badFunction i name e, ?_, badFunction_code i name e⟩
    have found := hi _ (hj (.badFunction i name e)
      (by simp only [Validation.checkFunction, he, Findings.violation_violations,
        List.mem_singleton]))
    simp only [found, true_or, or_true]
  | @rule element ruleSet source hm hs he =>
    generalize sheet.allRuleSets.map (·.name) = known
    obtain ⟨i, hi⟩ := Findings.exists_mem_onEach (Validation.checkRules known) hm
    obtain ⟨j, hj⟩ := Findings.exists_mem_onEach
      (fun _ (s : String × String) => Validation.checkRule known i element s.1 s.2) hs
    refine ⟨.badRule i ruleSet e, ?_, by simp [Violation.code, compilationCodes]⟩
    have found := hi _ (hj (.badRule i ruleSet e)
      (by simp [Validation.checkRule, he, Findings.ofResult]))
    simp only [found, true_or, or_true]
  | @winCondition r hr he =>
    obtain ⟨i, hi⟩ := Findings.exists_mem_onEach Validation.checkConditions hr
    refine ⟨.badCondition i "winCondition" e, ?_, by simp [Violation.code, compilationCodes]⟩
    have found := hi (.badCondition i "winCondition" e)
      (by simp [Validation.checkConditions, Validation.checkCondition, he, Findings.ofResult])
    simp only [found, true_or, or_true]
  | @loseCondition r hr he =>
    obtain ⟨i, hi⟩ := Findings.exists_mem_onEach Validation.checkConditions hr
    refine ⟨.badCondition i "loseCondition" e, ?_, by simp [Violation.code, compilationCodes]⟩
    have found := hi (.badCondition i "loseCondition" e)
      (by simp [Validation.checkConditions, Validation.checkCondition, he, Findings.ofResult])
    simp only [found, true_or, or_true]

end ScoreSheet
