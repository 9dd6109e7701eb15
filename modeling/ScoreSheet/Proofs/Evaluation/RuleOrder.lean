import ScoreSheet.Proofs.Evaluation.Convergence
set_option autoImplicit false

namespace ScoreSheet

open Rule

def Store.SameEntries (s t : Store) : Prop := ∀ id, s.get? id = t.get? id

theorem Store.SameEntries.views {s t : Store} (h : s.SameEntries t) (elements : List Element) :
    views elements s = views elements t :=
  List.map_congr_left fun e _ => View.ofElement_congr (h e.id)

/-- Writes that are the same for every id make the same entries and the same changes. -/
theorem Store.SameEntries.applyAll {s t : Store} (h : s.SameEntries t) {writes writes' : List Write}
    (same : ∀ id, patchesTo id writes = patchesTo id writes') :
    (s.applyAll writes).SameEntries (t.applyAll writes') ∧
      s.changedBy writes = t.changedBy writes' := by
  constructor
  · intro id
    rw [get?_applyAll, get?_applyAll, same, h id]
  · rw [Bool.eq_iff_iff, changedBy_iff_patchAll, changedBy_iff_patchAll]
    exact exists_congr fun id => by rw [same, h id]

/-- Where at most one item has something, the order of the items does not matter. -/
theorem flatMap_perm {α β : Type} {g : α → List β} {xs ys : List α} (perm : xs.Perm ys)
    (apart : xs.Pairwise fun x y => g x = [] ∨ g y = []) : xs.flatMap g = ys.flatMap g := by
  induction perm with
  | nil => rfl
  | cons x _ ih => rw [List.flatMap_cons, List.flatMap_cons, ih (List.pairwise_cons.1 apart).2]
  | swap x y xs =>
    have one := (List.pairwise_cons.1 apart).1 x List.mem_cons_self
    simp only [List.flatMap_cons]
    rcases one with empty | empty <;> simp only [empty, List.nil_append]
  | trans first _ ih ih' =>
    rw [ih apart]
    exact ih' (first.pairwise apart fun h => h.symm)

namespace Program

/-- Whether in a pass over the views of a store no rule fails and no two rules write to the
same element. -/
structure Independent (p : Program) (elements : List Element) (limit : Nat) (s : Store) :
    Prop where
  succeed : ∀ rule ∈ p.rules, ∃ writes,
    ruleWrites (p.environment elements s) limit rule = some writes
  apart : p.rules.Pairwise fun rule other =>
    ∀ writes, ruleWrites (p.environment elements s) limit rule = some writes →
      ∀ writes', ruleWrites (p.environment elements s) limit other = some writes' →
        ∀ w ∈ writes, ∀ v ∈ writes', w.id ≠ v.id

variable {p q : Program} {elements : List Element} {limit : Nat} {s t : Store}

theorem Independent.patchesTo (h : p.Independent elements limit s) (perm : p.rules.Perm q.rules)
    (id : String) :
    patchesTo id (rulesWrites (p.environment elements s) limit p.rules) =
      patchesTo id (rulesWrites (p.environment elements s) limit q.rules) := by
  rw [rulesWrites, rulesWrites, patchesTo_flatMap, patchesTo_flatMap]
  refine flatMap_perm perm (h.apart.imp fun {rule other} apart => ?_)
  rw [patchesTo_eq_nil, patchesTo_eq_nil]
  cases hw : ruleWrites (p.environment elements s) limit rule with
  | none => exact .inl (List.forall_mem_nil _)
  | some writes =>
    cases hv : ruleWrites (p.environment elements s) limit other with
    | none => exact .inr (List.forall_mem_nil _)
    | some writes' =>
      by_contra both
      simp only [Option.getD_some, not_or, not_forall, not_not] at both
      obtain ⟨⟨w, known, here⟩, v, known', here'⟩ := both
      exact apart writes hw writes' hv w known v known' (here.trans here'.symm)

/-- A pass of independent rules does the same in every order of them. -/
theorem Independent.pass (h : p.Independent elements limit s) (perm : p.rules.Perm q.rules)
    (functions : p.functions = q.functions) (same : s.SameEntries t) :
    ∃ changed s' t', p.pass elements limit s = .ok changed s' ∧
      q.pass elements limit t = .ok changed t' ∧ s'.SameEntries t' := by
  have env : q.environment elements t = p.environment elements s := by
    rw [environment, environment, same.views, functions]
  obtain ⟨stores, changed⟩ := same.applyAll (h.patchesTo perm)
  refine ⟨_, _, _, pass_eq_ok.2 ⟨h.succeed, rfl, rfl⟩, pass_eq_ok.2 ⟨?_, ?_, rfl⟩, ?_⟩
  · exact env ▸ fun rule known => h.succeed rule (perm.mem_iff.2 known)
  · rw [env, changed]
  · rwa [env]

theorem settle_perm (perm : p.rules.Perm q.rules) (functions : p.functions = q.functions)
    (reruns : Nat) (same : s.SameEntries t)
    (h : ∀ u ∈ p.starts elements limit reruns s, p.Independent elements limit u) :
    ∃ outcome s' t', p.settle elements limit reruns s = .ok outcome s' ∧
      q.settle elements limit reruns t = .ok outcome t' ∧ s'.SameEntries t' := by
  induction reruns generalizing s t with
  | zero =>
    obtain ⟨changed, s', t', hs, ht, same⟩ :=
      (h s (mem_starts_self 0 s)).pass perm functions same
    rw [settle_zero, settle_zero, hs, ht]
    exact ⟨_, s', t', rfl, rfl, same⟩
  | succ reruns ih =>
    obtain ⟨changed, s', t', hs, ht, same⟩ :=
      (h s (mem_starts_self _ s)).pass perm functions same
    cases changed with
    | false => exact ⟨_, s', t', settle_of_pass hs _, settle_of_pass ht _, same⟩
    | true =>
      obtain ⟨later, s'', t'', hs', ht', same⟩ :=
        ih same fun u hu => h u (mem_starts_of_change hs hu)
      rw [settle_of_change hs, settle_of_change ht, hs', ht']
      exact ⟨_, s'', t'', rfl, rfl, same⟩

theorem compile_perm {ruleSet : RuleSet} {elements' : List Element}
    (perm : elements'.Perm elements) (h : compile ruleSet elements = .ok p) :
    ∃ q, compile ruleSet elements' = .ok q ∧ q.name = p.name ∧ p.functions = q.functions ∧
      p.rules.Perm q.rules := by
  obtain ⟨name, functions, hr⟩ := compile_eq_ok.1 h
  obtain ⟨compiled, rules⟩ := rulesOf_eq_ok.1 hr
  let q : Program := ⟨p.name, p.functions,
    elements'.filterMap fun e => (ruleOf? ruleSet.name e).toOption.join⟩
  have hq : compile ruleSet elements' = .ok q := compile_eq_ok.2 ⟨name, functions,
    rulesOf_eq_ok.2 ⟨fun e he => compiled e (perm.mem_iff.1 he), rfl⟩⟩
  exact ⟨q, hq, rfl, rfl, rules ▸ (perm.filterMap _).symm⟩

/-- As long as the rules of a pass neither fail nor write to the same element, their order
only decides in which order new entries stand. -/
theorem run_perm (ruleSet : RuleSet) (elements elements' : List Element)
    (perm : elements'.Perm elements) (p : Program) (compiled : compile ruleSet elements = .ok p)
    (limits : Limits) (store : Store)
    (independent : ∀ s ∈ p.starts elements limits.callDepth limits.reruns store,
      p.Independent elements limits.callDepth s) :
    ∃ q report s t, compile ruleSet elements' = .ok q ∧
      p.run elements limits store = .ok report s ∧
      q.run elements limits store = .ok report t ∧ ∀ id, s.get? id = t.get? id := by
  obtain ⟨q, hq, name, functions, rules⟩ := compile_perm perm compiled
  obtain ⟨rounds, s, t, hs, ht, same⟩ :=
    settle_perm rules functions limits.reruns (fun _ => rfl) independent
  refine ⟨q, ⟨rounds.changed, rounds.passes, rounds.exhausted,
    if rounds.exhausted then [Warning.unsettled p.name rounds.passes] else []⟩,
    s, t, hq, ?_, ?_, same⟩
  · rw [run_eq, hs]
  · rw [run_eq, ht, name]

theorem Ranked.independent {rank : String → Nat} (h : p.Ranked elements limit rank)
    (distinct : (p.rules.map Prod.fst).Nodup)
    (succeed : ∀ rule ∈ p.rules, ∃ writes,
      ruleWrites (p.environment elements s) limit rule = some writes) :
    p.Independent elements limit s := by
  refine ⟨succeed, (List.pairwise_map.1 distinct).imp_of_mem ?_⟩
  intro rule other known known' different writes hw writes' hw' w mem v mem' same
  exact different ((h.id_of_write known hw mem).symm.trans
    (same.trans (h.id_of_write known' hw' mem')))

/-- In the other order of the rules the entries of `b` and `c` are made the other way
round. -/
theorem run_perm_chain :
    let store : Store := ⟨[⟨"a", some (.bool true), none⟩]⟩
    chainElements.reverse.Perm chainElements ∧
      (∀ s ∈ chain.starts chainElements 64 2 store, chain.Independent chainElements 64 s) ∧
      (∃ q report s t, compile ⟨"default", [], none, none⟩ chainElements.reverse = .ok q ∧
        chain.run chainElements ⟨2, 64⟩ store = .ok report s ∧
        q.run chainElements ⟨2, 64⟩ store = .ok report t ∧ ∀ id, s.get? id = t.get? id) ∧
      (chain.run chainElements ⟨2, 64⟩ store = .ok ⟨true, 3, false, []⟩
          ⟨[⟨"a", some (.bool true), none⟩, ⟨"c", none, some true⟩,
            ⟨"b", some (.bool true), none⟩]⟩ ∧
        { chain with rules := chain.rules.reverse }.run chainElements ⟨2, 64⟩ store =
          .ok ⟨true, 3, false, []⟩
            ⟨[⟨"a", some (.bool true), none⟩, ⟨"b", some (.bool true), none⟩,
              ⟨"c", none, some true⟩]⟩) := by
  have independent (s : Store) : chain.Independent chainElements 64 s :=
    (chain_ranked 64).independent (by decide) (chain_writes 64 s)
  exact ⟨chainElements.reverse_perm, fun s _ => independent s,
    run_perm _ _ _ chainElements.reverse_perm chain compile_chain ⟨2, 64⟩ _
      fun s _ => independent s,
    rfl, rfl⟩

end Program

end ScoreSheet
