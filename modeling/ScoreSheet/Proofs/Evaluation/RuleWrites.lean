import ScoreSheet.Proofs.Evaluation.FixedPoint
set_option autoImplicit false

namespace ScoreSheet

open Rule

def ruleWrites (env : Environment) (limit : Nat) (rule : String × Expr) : Option (List Write) :=
  match runRule env record limit rule.1 rule.2 [] with
  | .ok _ writes => some writes
  | .error _ _ => none

/-- The writes of a rule come behind those that are recorded before it. -/
theorem runRule_record (env : Environment) (limit : Nat) (rule : String × Expr)
    (before : List Write) :
    match ruleWrites env limit rule with
    | some writes => runRule env record limit rule.1 rule.2 before = .ok () (before ++ writes)
    | none => ∃ f after, runRule env record limit rule.1 rule.2 before = .error f after := by
  -- Recording behind other writes simulates recording from the beginning.
  have record_behind : SinksSimulate (.strict fun writes after => after = before ++ writes) id
      record record := by
    refine sinksSimulate_id fun element p => simulates_strict.2 ?_
    rintro writes after rfl
    exact ⟨(), _, rfl, rfl, (List.append_assoc _ _ _)⟩
  have same_views : env.Alike id env := ⟨rfl, rfl⟩
  have run := simulates_strict.1
    (runRule_simulates unseen_id same_views record_behind limit rule.1 rule.2) [] before
    (List.append_nil before).symm
  unfold ruleWrites
  cases hr : runRule env record limit rule.1 rule.2 [] with
  | ok x writes =>
    rw [hr] at run
    obtain ⟨_, _, run, -, rfl⟩ := run
    exact run
  | error f writes =>
    rw [hr] at run
    obtain ⟨after, run, -⟩ := run
    exact ⟨f, after, run⟩

def rulesWrites (env : Environment) (limit : Nat) (rules : List (String × Expr)) : List Write :=
  rules.flatMap fun rule => (ruleWrites env limit rule).getD []

namespace Program

theorem runRules_record (env : Environment) (limit : Nat) (rules : List (String × Expr))
    (before : List Write) :
    match runRules env record limit rules before with
    | .ok _ after => after = before ++ rulesWrites env limit rules ∧
        ∀ rule ∈ rules, ∃ writes, ruleWrites env limit rule = some writes
    | .error _ _ => ∃ rule ∈ rules, ruleWrites env limit rule = none := by
  induction rules generalizing before with
  | nil => exact ⟨(List.append_nil before).symm, List.forall_mem_nil _⟩
  | cons first rules ih =>
    have run := runRule_record env limit first before
    have steps : runRules env record limit (first :: rules) before =
        match runRule env record limit first.1 first.2 before with
        | .ok _ after => runRules env record limit rules after
        | .error f after => .error ⟨f, some first.1⟩ after := by
      change EStateM.bind (EStateM.adaptExcept _ _) _ _ = _
      unfold EStateM.bind EStateM.adaptExcept
      cases runRule env record limit first.1 first.2 before <;> rfl
    rw [steps]
    cases hw : ruleWrites env limit first with
    | none =>
      rw [hw] at run
      obtain ⟨f, after, run⟩ := run
      rw [run]
      exact ⟨first, List.mem_cons_self, hw⟩
    | some writes =>
      rw [hw] at run
      have rest := ih (before ++ writes)
      rw [run]
      cases hr : runRules env record limit rules (before ++ writes) with
      | ok x after =>
        simp only [hr] at rest ⊢
        refine ⟨?_, List.forall_mem_cons.2 ⟨⟨writes, hw⟩, rest.2⟩⟩
        rw [rest.1, rulesWrites, rulesWrites, List.flatMap_cons, hw, List.append_assoc]
        rfl
      | error e after =>
        simp only [hr] at rest ⊢
        obtain ⟨rule, known, failed⟩ := rest
        exact ⟨rule, List.mem_cons_of_mem _ known, failed⟩

variable {p : Program} {elements : List Element} {limit : Nat} {s t : Store}

/-- A pass without a failure issues the writes of its rules. -/
theorem pass_eq_ok {changed : Bool} : p.pass elements limit s = .ok changed t ↔
    (∀ rule ∈ p.rules, ∃ writes, ruleWrites (p.environment elements s) limit rule = some writes) ∧
      changed = s.changedBy (rulesWrites (p.environment elements s) limit p.rules) ∧
      t = s.applyAll (rulesWrites (p.environment elements s) limit p.rules) := by
  have run := runRules_record (p.environment elements s) limit p.rules []
  unfold environment at run ⊢
  rw [pass_eq_replay, trace]
  cases hr : runRules ⟨views elements s, p.functions⟩ record limit p.rules [] with
  | ok x after =>
    rw [hr] at run
    obtain ⟨rfl, succeed⟩ := run
    constructor
    · intro h
      obtain ⟨changed, left⟩ := EStateM.Result.ok.inj h
      exact ⟨succeed, changed.symm, left.symm⟩
    · rintro ⟨-, rfl, rfl⟩
      rfl
  | error e after =>
    rw [hr] at run
    obtain ⟨rule, known, failed⟩ := run
    refine iff_of_false (fun h => nomatch h) fun ⟨succeed, _⟩ => ?_
    obtain ⟨writes, hw⟩ := succeed rule known
    cases failed.symm.trans hw

/-- The stores at which the passes of a run begin, the first one included. -/
def starts (p : Program) (elements : List Element) (limit : Nat) : Nat → Store → List Store
  | 0, s => [s]
  | reruns + 1, s =>
    s :: match p.pass elements limit s with
      | .ok true t => p.starts elements limit reruns t
      | _ => []

theorem mem_starts_self (reruns : Nat) (s : Store) : s ∈ p.starts elements limit reruns s := by
  cases reruns <;> exact List.mem_cons_self

theorem mem_starts_of_change {reruns : Nat} (h : p.pass elements limit s = .ok true t)
    {u : Store} (hu : u ∈ p.starts elements limit reruns t) :
    u ∈ p.starts elements limit (reruns + 1) s := by
  rw [starts, h]
  exact List.mem_cons_of_mem _ hu

theorem rulesOf_eq_ok {name : String} {rules : List (String × Expr)} :
    rulesOf name elements = .ok rules ↔
      (∀ e ∈ elements, ∃ rule, ruleOf? name e = .ok rule) ∧
        rules = elements.filterMap fun e => (ruleOf? name e).toOption.join := by
  induction elements generalizing rules with
  | nil => exact ⟨fun h => ⟨List.forall_mem_nil _, (Except.ok.inj h).symm⟩, fun h => h.2 ▸ rfl⟩
  | cons e elements ih =>
    rw [List.forall_mem_cons]
    constructor
    · intro h
      obtain ⟨rule, he, h⟩ := bind_ok h
      obtain ⟨rest, hr, h⟩ := bind_ok h
      cases h
      obtain ⟨compiled, rfl⟩ := ih.1 hr
      refine ⟨⟨⟨rule, he⟩, compiled⟩, ?_⟩
      rw [List.filterMap_cons, he]
      cases rule <;> rfl
    · rintro ⟨⟨⟨rule, he⟩, compiled⟩, rfl⟩
      rw [rulesOf, he, ih.2 ⟨compiled, rfl⟩, List.filterMap_cons, he]
      cases rule <;> rfl

theorem compile_eq_ok {ruleSet : RuleSet} : compile ruleSet elements = .ok p ↔
    p.name = ruleSet.name ∧ compileFunctions ruleSet.functions = .ok p.functions ∧
      rulesOf ruleSet.name elements = .ok p.rules := by
  constructor
  · intro h
    obtain ⟨functions, hf, h⟩ := bind_ok h
    obtain ⟨rules, hr, h⟩ := bind_ok h
    cases h
    exact ⟨rfl, hf, hr⟩
  · rintro ⟨name, hf, hr⟩
    rw [compile, hf, hr, ← name]
    rfl

theorem ruleOf?_id {name : String} {e : Element} {rule : String × Expr}
    (h : (ruleOf? name e).toOption.join = some rule) : rule.1 = e.id := by
  unfold ruleOf? at h
  split at h
  · cases h
  · rename_i source _
    cases hc : compileRule e.id source with
    | error _ =>
      rw [hc] at h
      cases h
    | ok expr =>
      rw [hc] at h
      cases expr with
      | none => cases h
      | some expr =>
        cases h
        rfl

/-- Different elements have different rules. -/
theorem nodup_rules {ruleSet : RuleSet} (h : compile ruleSet elements = .ok p)
    (distinct : (elements.map Element.id).Nodup) : (p.rules.map Prod.fst).Nodup := by
  obtain ⟨-, -, hr⟩ := compile_eq_ok.1 h
  obtain ⟨-, rules⟩ := rulesOf_eq_ok.1 hr
  rw [rules]
  refine List.pairwise_map.2 (List.pairwise_filterMap.2 ?_)
  refine (List.pairwise_map.1 distinct).imp fun different rule hrule other hother same => ?_
  exact different ((ruleOf?_id hrule).symm.trans (same.trans (ruleOf?_id hother)))

end Program

end ScoreSheet
