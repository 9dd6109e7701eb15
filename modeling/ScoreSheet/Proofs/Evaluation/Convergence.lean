import ScoreSheet.Proofs.Evaluation.Entrywise
import ScoreSheet.Proofs.Evaluation.Likeness
import ScoreSheet.Proofs.Evaluation.RuleWrites
set_option autoImplicit false

/-! If the result of every rule is determined by elements of smaller rank than its own, then
after `k` passes the rules up to rank `k` find their results stored. So a run is settled as
soon as it has taken one pass more than the largest rank, in any order of the elements. -/
namespace ScoreSheet

open Rule

namespace Program

/-- A rank by which every rule is determined: it writes only through its result, and the
result is the same, up to the signs of zeros, on stores in which the elements of smaller
rank look the same. -/
structure Ranked (p : Program) (elements : List Element) (limit : Nat) (rank : String → Nat) :
    Prop where
  positive : ∀ rule ∈ p.rules, 1 ≤ rank rule.1
  quiet : ∀ rule ∈ p.rules, ∀ s v writes,
    evaluateTop (p.environment elements s) record limit rule.2 [] = .ok v writes → writes = []
  determined : ∀ rule ∈ p.rules, ∀ s t,
    (∀ e ∈ elements, rank e.id < rank rule.1 → View.ofElement s e = View.ofElement t e) →
    ∀ v w, evaluateTop (p.environment elements s) record limit rule.2 [] = .ok v [] →
      evaluateTop (p.environment elements t) record limit rule.2 [] = .ok w [] →
      v.mapNumbers Number.mergeZeros = w.mapNumbers Number.mergeZeros

variable {p : Program} {elements : List Element} {limit : Nat} {rank : String → Nat}
  {s t : Store}

theorem putResult_record {env : Environment} {element : String} {v : Value} {x : Unit}
    {writes : List Write} (h : putResult env record element v [] = .ok x writes) :
    (v = .undefined ∧ writes = []) ∨ ∃ fields patch, v = .object fields ∧
      patchOf fields = .ok patch ∧ writes = [⟨element, patch⟩] := by
  cases v with
  | object fields =>
    change update env record element fields [] = .ok x writes at h
    unfold update at h
    split at h
    · cases hp : patchOf fields with
      | error f =>
        rw [hp] at h
        cases h
      | ok patch =>
        rw [hp] at h
        cases h
        exact .inr ⟨fields, patch, rfl, hp, rfl⟩
    · cases h
  | undefined =>
    cases h
    exact .inl ⟨rfl, rfl⟩
  | _ => cases h

/-- A rule that writes only through its result writes a patch to its own element or
nothing. -/
theorem Ranked.writes (h : p.Ranked elements limit rank) {rule : String × Expr}
    (known : rule ∈ p.rules) {writes : List Write}
    (hw : ruleWrites (p.environment elements s) limit rule = some writes) :
    ∃ v, evaluateTop (p.environment elements s) record limit rule.2 [] = .ok v [] ∧
      ((v = .undefined ∧ writes = []) ∨ ∃ fields patch, v = .object fields ∧
        patchOf fields = .ok patch ∧ writes = [⟨rule.1, patch⟩]) := by
  unfold ruleWrites at hw
  rw [runRule_eq] at hw
  simp only [bind, EStateM.bind] at hw
  cases hv : evaluateTop (p.environment elements s) record limit rule.2 [] with
  | error f before =>
    rw [hv] at hw
    cases hw
  | ok v before =>
    rw [hv] at hw
    obtain rfl := h.quiet rule known s v before hv
    refine ⟨v, rfl, ?_⟩
    cases hr : putResult (p.environment elements s) record rule.1 v [] with
    | error f after =>
      simp only [hr] at hw
      cases hw
    | ok x after =>
      simp only [hr] at hw
      cases hw
      exact putResult_record hr

/-- From stores with the same elements of smaller rank, a rule writes like patches. -/
theorem Ranked.writes_alike (h : p.Ranked elements limit rank) {rule : String × Expr}
    (known : rule ∈ p.rules)
    (same : ∀ e ∈ elements, rank e.id < rank rule.1 → View.ofElement s e = View.ofElement t e)
    {writes writes' : List Write}
    (hs : ruleWrites (p.environment elements s) limit rule = some writes)
    (ht : ruleWrites (p.environment elements t) limit rule = some writes') :
    (writes = [] ∧ writes' = []) ∨ ∃ patch patch', writes = [⟨rule.1, patch⟩] ∧
      writes' = [⟨rule.1, patch'⟩] ∧ patch.hasNaN = false ∧ patch.Alike patch' := by
  obtain ⟨v, hv, written⟩ := h.writes known hs
  obtain ⟨w, hw, written'⟩ := h.writes known ht
  have result := h.determined rule known s t same v w hv hw
  rcases written with ⟨rfl, rfl⟩ | ⟨fields, patch, rfl, hp, rfl⟩ <;>
    rcases written' with ⟨rfl, rfl⟩ | ⟨fields', patch', rfl, hp', rfl⟩
  · exact .inl ⟨rfl, rfl⟩
  · cases result
  · cases result
  · have patches := mapNumbers_patchOf unseen_mergeZeros fields
    rw [Value.object.inj result, mapNumbers_patchOf unseen_mergeZeros, hp, hp'] at patches
    have number := hasNaN_of_patchOf hp
    exact .inr ⟨patch, patch', rfl, rfl, number,
      Patch.alike_of_mapNumbers number (Except.ok.inj patches).symm⟩

theorem mem_rulesWrites {env : Environment} {rules : List (String × Expr)} {w : Write} :
    w ∈ rulesWrites env limit rules ↔
      ∃ rule ∈ rules, ∃ writes, ruleWrites env limit rule = some writes ∧ w ∈ writes := by
  rw [rulesWrites, List.mem_flatMap]
  refine exists_congr fun rule => and_congr_right fun _ => ?_
  cases ruleWrites env limit rule <;> simp

theorem Ranked.id_of_write (h : p.Ranked elements limit rank) {rule : String × Expr}
    (known : rule ∈ p.rules) {writes : List Write}
    (hw : ruleWrites (p.environment elements s) limit rule = some writes) {w : Write}
    (mem : w ∈ writes) : w.id = rule.1 := by
  obtain ⟨v, -, ⟨-, rfl⟩ | ⟨fields, patch, -, -, rfl⟩⟩ := h.writes known hw
  · cases mem
  · rw [List.mem_singleton.1 mem]

theorem Ranked.patchesTo_other (h : p.Ranked elements limit rank) {rules : List (String × Expr)}
    (sub : ∀ rule ∈ rules, rule ∈ p.rules) {id : String} (other : id ∉ rules.map Prod.fst) :
    patchesTo id (rulesWrites (p.environment elements s) limit rules) = [] := by
  refine patchesTo_eq_nil.2 fun w hw same => ?_
  obtain ⟨rule, known, writes, written, mem⟩ := mem_rulesWrites.1 hw
  rw [h.id_of_write (sub rule known) written mem] at same
  exact other (same ▸ List.mem_map_of_mem known)

/-- An element without a rule keeps its entry. -/
theorem Ranked.get?_other (h : p.Ranked elements limit rank) {changed : Bool}
    (hp : p.pass elements limit s = .ok changed t) {id : String}
    (other : id ∉ p.rules.map Prod.fst) : t.get? id = s.get? id := by
  obtain ⟨-, -, rfl⟩ := pass_eq_ok.1 hp
  rw [Store.get?_applyAll, h.patchesTo_other (fun _ known => known) other]
  rfl

/-- An element with a rule gets the writes of that rule. -/
theorem Ranked.get?_rule (h : p.Ranked elements limit rank)
    (distinct : (p.rules.map Prod.fst).Nodup) {changed : Bool}
    (hp : p.pass elements limit s = .ok changed t) {rule : String × Expr}
    (known : rule ∈ p.rules) {writes : List Write}
    (hw : ruleWrites (p.environment elements s) limit rule = some writes) :
    t.get? rule.1 = (s.applyAll writes).get? rule.1 := by
  obtain ⟨-, -, rfl⟩ := pass_eq_ok.1 hp
  obtain ⟨before, after, rules⟩ := List.append_of_mem known
  rw [rules, List.map_append, List.map_cons, List.nodup_append, List.nodup_cons] at distinct
  obtain ⟨-, ⟨not_after, -⟩, apart⟩ := distinct
  have not_before : rule.1 ∉ before.map Prod.fst := fun mem =>
    apart rule.1 mem rule.1 List.mem_cons_self rfl
  have sub_before : ∀ other ∈ before, other ∈ p.rules := fun other mem =>
    rules ▸ List.mem_append_left _ mem
  have sub_after : ∀ other ∈ after, other ∈ p.rules := fun other mem =>
    rules ▸ List.mem_append_right _ (List.mem_cons_of_mem _ mem)
  have parts : rulesWrites (p.environment elements s) limit p.rules =
      rulesWrites (p.environment elements s) limit before ++ (writes ++
        rulesWrites (p.environment elements s) limit after) := by
    rw [rules, rulesWrites, List.flatMap_append, List.flatMap_cons, hw]
    rfl
  -- The rules before and behind this one write to other elements.
  rw [Store.get?_applyAll, Store.get?_applyAll, parts, patchesTo_append, patchesTo_append,
    h.patchesTo_other sub_before not_before, h.patchesTo_other sub_after not_after,
    List.nil_append, List.append_nil]

/-- Whether every rule up to a rank finds in the store what it would write. -/
def SettledTo (p : Program) (elements : List Element) (limit : Nat) (rank : String → Nat)
    (k : Nat) (s : Store) : Prop :=
  ∀ rule ∈ p.rules, rank rule.1 ≤ k → ∀ writes,
    ruleWrites (p.environment elements s) limit rule = some writes → s.changedBy writes = false

variable {k : Nat}

/-- A pass leaves alone what is settled. -/
theorem Ranked.views_kept (h : p.Ranked elements limit rank)
    (distinct : (p.rules.map Prod.fst).Nodup) {changed : Bool}
    (hp : p.pass elements limit s = .ok changed t) (settled : p.SettledTo elements limit rank k s)
    (e : Element) (le : rank e.id ≤ k) : View.ofElement s e = View.ofElement t e := by
  refine View.ofElement_congr ?_
  by_cases ruled : e.id ∈ p.rules.map Prod.fst
  · obtain ⟨rule, known, here⟩ := List.mem_map.1 ruled
    obtain ⟨writes, hw⟩ := (pass_eq_ok.1 hp).1 rule known
    have unchanged := settled rule known (here ▸ le) writes hw
    rw [← here, h.get?_rule distinct hp known hw, Store.applyAll_eq_self unchanged]
  · rw [h.get?_other hp ruled]

/-- Every pass settles the rules of one more rank. -/
theorem Ranked.step (h : p.Ranked elements limit rank)
    (distinct : (p.rules.map Prod.fst).Nodup) {changed : Bool}
    (hp : p.pass elements limit s = .ok changed t)
    (settled : p.SettledTo elements limit rank k s) :
    p.SettledTo elements limit rank (k + 1) t := by
  intro rule known le writes' hw'
  obtain ⟨writes, hw⟩ := (pass_eq_ok.1 hp).1 rule known
  have same : ∀ e ∈ elements, rank e.id < rank rule.1 →
      View.ofElement s e = View.ofElement t e := fun e _ less =>
    h.views_kept distinct hp settled e (Nat.le_of_lt_succ (Nat.lt_of_lt_of_le less le))
  -- The rule sees nothing that the pass has changed, and issues a like patch once more.
  rcases h.writes_alike known same hw hw' with
    ⟨-, rfl⟩ | ⟨patch, patch', rfl, rfl, number, like⟩
  · rfl
  · have entry := h.get?_rule distinct hp known hw
    change t.get? rule.1 = ((s.apply rule.1 patch).1).get? rule.1 at entry
    rw [Store.get?_apply, if_pos rfl] at entry
    rw [Store.changedBy, Store.changedBy, Bool.or_false, Store.apply_changed, entry]
    exact like.applyTo_applyTo number rule.1 _

theorem Ranked.settledTo_zero (h : p.Ranked elements limit rank) (s : Store) :
    p.SettledTo elements limit rank 0 s := by
  intro rule known le
  have positive := h.positive rule known
  omega

/-- Where the rules of all ranks are settled, a pass changes nothing. -/
theorem SettledTo.pass (settled : p.SettledTo elements limit rank k s)
    (bound : ∀ rule ∈ p.rules, rank rule.1 ≤ k) {changed : Bool}
    (hp : p.pass elements limit s = .ok changed t) : p.pass elements limit s = .ok false t := by
  obtain ⟨succeed, rfl, rfl⟩ := pass_eq_ok.1 hp
  refine pass_eq_ok.2 ⟨succeed, (Store.changedBy_eq_false.2 fun w hw => ?_).symm, rfl⟩
  obtain ⟨rule, known, writes, written, mem⟩ := mem_rulesWrites.1 hw
  exact Store.changedBy_eq_false.1 (settled rule known (bound rule known) writes written) w mem

/-- By induction on the ranks that are left, each of which takes one pass. -/
theorem Ranked.settle (h : p.Ranked elements limit rank)
    (distinct : (p.rules.map Prod.fst).Nodup) {left reruns : Nat}
    (settled : p.SettledTo elements limit rank k s)
    (bound : ∀ rule ∈ p.rules, rank rule.1 ≤ k + left) (enough : left ≤ reruns)
    (succeed : ∀ u ∈ p.starts elements limit reruns s, ∃ changed v,
      p.pass elements limit u = .ok changed v) :
    ∃ rounds t, p.settle elements limit reruns s = .ok rounds t ∧ rounds.exhausted = false ∧
      rounds.passes ≤ left + 1 := by
  induction left generalizing k reruns s with
  | zero =>
    obtain ⟨changed, t, hp⟩ := succeed s (mem_starts_self reruns s)
    exact ⟨_, t, settle_of_pass (settled.pass bound hp) reruns, rfl, Nat.le_refl 1⟩
  | succ left ih =>
    obtain ⟨reruns, rfl⟩ := Nat.exists_eq_add_one_of_ne_zero (Nat.ne_zero_of_lt enough)
    obtain ⟨changed, t, hp⟩ := succeed s (mem_starts_self _ s)
    cases changed with
    | false => exact ⟨_, t, settle_of_pass hp _, rfl, Nat.succ_le_succ (Nat.zero_le _)⟩
    | true =>
      have left_ranks : ∀ rule ∈ p.rules, rank rule.1 ≤ k + 1 + left := fun rule known =>
        Nat.le_trans (bound rule known) (by omega)
      obtain ⟨later, u, hu, ends, few⟩ := ih (h.step distinct hp settled) left_ranks
        (Nat.le_of_succ_le_succ enough) fun u mem => succeed u (mem_starts_of_change hp mem)
      refine ⟨⟨true, later.passes + 1, later.exhausted⟩, u, ?_, ends, Nat.succ_le_succ few⟩
      rw [settle_of_change hp, hu]

/-- Rules without cycles need as many passes as there are ranks, and one more that finds
nothing to change. -/
theorem run_ranked (ruleSet : RuleSet) (elements : List Element)
    (distinct : (elements.map Element.id).Nodup) (p : Program)
    (compiled : compile ruleSet elements = .ok p) (limits : Limits) (store : Store)
    (rank : String → Nat) (ranked : p.Ranked elements limits.callDepth rank) (largest : Nat)
    (bound : ∀ rule ∈ p.rules, rank rule.1 ≤ largest) (enough : largest ≤ limits.reruns)
    (succeed : ∀ s ∈ p.starts elements limits.callDepth limits.reruns store,
      ∃ changed t, p.pass elements limits.callDepth s = .ok changed t) :
    ∃ report s, p.run elements limits store = .ok report s ∧ report.exhausted = false ∧
      report.passes ≤ largest + 1 := by
  have ranks : ∀ rule ∈ p.rules, rank rule.1 ≤ 0 + largest := by simpa using bound
  obtain ⟨rounds, s, hs, ends, few⟩ := ranked.settle (nodup_rules compiled distinct)
    (ranked.settledTo_zero store) ranks enough succeed
  exact ⟨_, s, by rw [run_eq, hs], ends, few⟩

/-- A function over elements sees the elements that it names. -/
theorem selected_congr {ids : List String}
    (same : ∀ e ∈ elements, e.id ∈ ids → View.ofElement s e = View.ofElement t e) :
    selected (views elements s) ids = selected (views elements t) ids := by
  rw [selected, selected, views, views, List.filter_map, List.filter_map]
  refine List.map_congr_left fun e he => ?_
  obtain ⟨known, named⟩ := List.mem_filter.1 he
  exact same e known (List.contains_iff_mem.1 named)

def following (field id : String) : Expr :=
  .object [(field, .call "allAreChecked" [.one (.literal (.string id))])]

theorem evaluateTop_following (views : List View) (limit : Nat) (field id : String) :
    evaluateTop ⟨views, []⟩ record limit (following field id) [] =
      .ok (.object [(field, .bool (allAreChecked views [id]))]) [] := by
  cases limit <;> rfl

/-- Every box follows the next one, so that what `a` says takes two passes to reach `c`. -/
def chain : Program :=
  ⟨"default", [], [("c", following "disabled" "b"), ("b", following "value" "a")]⟩

def chainElements : List Element :=
  [("c", "\x7b disabled: allAreChecked(\"b\") \x7d"),
    ("b", "\x7b value: allAreChecked(\"a\") \x7d"), ("a", "")].map fun (id, rule) =>
      ⟨id, .checkbox, ⟨0.0, 0.0⟩, ⟨0.0, 0.0⟩, none, [("default", rule)]⟩

def chainRank (id : String) : Nat := if id = "c" then 2 else if id = "b" then 1 else 0

theorem chain_ranked (limit : Nat) : chain.Ranked chainElements limit chainRank := by
  have ruled : ∀ rule ∈ chain.rules, ∃ field id,
      rule.2 = following field id ∧ chainRank id < chainRank rule.1 := by
    refine List.forall_mem_cons.2 ⟨⟨"disabled", "b", rfl, by decide⟩, ?_⟩
    exact List.forall_mem_singleton.2 ⟨"value", "a", rfl, by decide⟩
  refine ⟨by decide, fun rule known s v writes h => ?_, fun rule known s t same v w hv hw => ?_⟩
  · obtain ⟨field, id, here, -⟩ := ruled rule known
    rw [here, environment] at h
    cases (evaluateTop_following _ limit field id).symm.trans h
    rfl
  · obtain ⟨field, id, here, less⟩ := ruled rule known
    rw [here, environment] at hv hw
    cases (evaluateTop_following _ limit field id).symm.trans hv
    cases (evaluateTop_following _ limit field id).symm.trans hw
    have seen : selected (views chainElements s) [id] = selected (views chainElements t) [id] :=
      selected_congr fun e known named => same e known (List.mem_singleton.1 named ▸ less)
    rw [allAreChecked, allAreChecked, countChecked, countChecked, seen]

def isChain : Except CompilationError Program → Bool
  | .ok ⟨"default", [],
      [("c", .object [("disabled", .call "allAreChecked" [.one (.literal (.string "b"))])]),
        ("b", .object [("value", .call "allAreChecked" [.one (.literal (.string "a"))])])]⟩ =>
    true
  | _ => false

theorem compile_chain : compile ⟨"default", [], none, none⟩ chainElements = .ok chain := by
  have parsed : isChain (compile ⟨"default", [], none, none⟩ chainElements) = true := by
    decide +kernel
  unfold isChain at parsed
  split at parsed
  · assumption
  · cases parsed

theorem chain_writes (limit : Nat) (s : Store) :
    ∀ rule ∈ chain.rules, ∃ writes,
      ruleWrites (chain.environment chainElements s) limit rule = some writes := by
  cases limit <;> exact List.forall_mem_cons.2 ⟨⟨_, rfl⟩, List.forall_mem_singleton.2 ⟨_, rfl⟩⟩

/-- It takes a pass for `b`, one for `c` and one that changes nothing. -/
theorem run_ranked_chain :
    let store : Store := ⟨[⟨"a", some (.bool true), none⟩]⟩
    compile ⟨"default", [], none, none⟩ chainElements = .ok chain ∧
      chain.Ranked chainElements 64 chainRank ∧
      (∃ report s, chain.run chainElements ⟨2, 64⟩ store = .ok report s ∧
        report.exhausted = false ∧ report.passes ≤ 3) ∧
      chain.run chainElements ⟨2, 64⟩ store = .ok ⟨true, 3, false, []⟩
        ⟨[⟨"a", some (.bool true), none⟩, ⟨"c", none, some true⟩,
          ⟨"b", some (.bool true), none⟩]⟩ :=
  ⟨compile_chain, chain_ranked 64,
    run_ranked ⟨"default", [], none, none⟩ chainElements (by decide) chain compile_chain ⟨2, 64⟩ _
      chainRank (chain_ranked 64) 2 (by decide) (Nat.le_refl 2)
      fun s _ => ⟨_, _, pass_eq_ok.2 ⟨chain_writes 64 s, rfl, rfl⟩⟩,
    rfl⟩

end Program

end ScoreSheet
