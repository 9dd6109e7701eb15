import Mathlib.Data.List.Forall2
import ScoreSheet.Proofs.Evaluation.FixedPoint
import ScoreSheet.Proofs.State.Likeness
set_option autoImplicit false

/-! On like stores a pass issues like writes and ends in like stores. It may report a change on
one of the stores only, because an entry that says nothing about `disabled` is changed by
what leaves one alone that says the default. Then the other run has ended, and the next
pass issues once more what the store now says. -/
namespace ScoreSheet

open Rule

theorem Datum.beq_iff {d d' : Datum} : (d == d') = true ↔
    d.mapNumbers Number.mergeZeros = d'.mapNumbers Number.mergeZeros ∧ d.isNaN = false := by
  cases d <;> cases d'
  case number.number x y =>
    refine Iff.trans Number.beq_iff (and_congr_left' ?_)
    exact ⟨congrArg Datum.number, Datum.number.inj⟩
  case bool.bool a b =>
    refine Iff.trans (beq_iff_eq (α := Bool)) ?_
    exact ⟨fun h => ⟨congrArg Datum.bool h, rfl⟩, fun h => Datum.bool.inj h.1⟩
  case text.text s t =>
    refine Iff.trans (beq_iff_eq (α := String)) ?_
    exact ⟨fun h => ⟨congrArg Datum.text h, rfl⟩, fun h => Datum.text.inj h.1⟩
  all_goals exact iff_of_false (fun h => nomatch h) (fun h => nomatch h.1)

theorem Patch.alike_of_mapNumbers {p q : Patch} (number : p.hasNaN = false)
    (same : p.mapNumbers Number.mergeZeros = q.mapNumbers Number.mergeZeros) : p.Alike q := by
  obtain ⟨value, disabled⟩ := p
  obtain ⟨value', disabled'⟩ := q
  obtain ⟨hv, rfl⟩ := Patch.mk.inj same
  refine ⟨?_, rfl⟩
  rcases value with _ | _ | d <;> rcases value' with _ | _ | d'
  case none.none | some.none.some.none => rfl
  case some.some.some.some =>
    exact Datum.beq_iff.2 ⟨Option.some.inj (Option.some.inj hv), number⟩
  all_goals cases hv

theorem View.mapNumbers_ofElement {s t : Store} (h : s.Alike t) (e : Element) :
    (View.ofElement s e).mapNumbers Number.mergeZeros =
      (View.ofElement t e).mapNumbers Number.mergeZeros := by
  unfold View.ofElement Store.value? Store.isDisabled
  rcases h.entries e.id with ⟨hs, ht⟩ | ⟨f, f', hs, ht, same⟩
  · rw [hs, ht]
  · obtain ⟨value, disabled⟩ := Entry.differ_eq_false.1 same
    rw [hs, ht]
    simp only [View.mapNumbers, Option.bind_some, Option.map_some, Option.getD_some, disabled]
    cases hv : f.value <;> cases hw : f'.value <;> rw [hv, hw] at value
    case some.some => rw [Option.map_some, Option.map_some, (Datum.beq_iff.1 value).1]
    all_goals first | rfl | cases value

theorem views_alike {s t : Store} (h : s.Alike t) (elements : List Element) :
    (views elements s).map (View.mapNumbers Number.mergeZeros) =
      (views elements t).map (View.mapNumbers Number.mergeZeros) := by
  rw [views, views, List.map_map, List.map_map]
  exact List.map_congr_left fun e _ => View.mapNumbers_ofElement h e

structure Write.Alike (w v : Write) : Prop where
  id : w.id = v.id
  patch : w.patch.Alike v.patch

theorem record_simulates :
    SinksSimulate (.strict (List.Forall₂ Write.Alike)) Number.mergeZeros record record := by
  intro element p q number same
  refine simulates_strict.2 fun writes writes' hw => ?_
  have last : Write.Alike ⟨element, p⟩ ⟨element, q⟩ := ⟨rfl, Patch.alike_of_mapNumbers number same⟩
  exact ⟨(), _, rfl, rfl, List.rel_append hw (.cons last .nil)⟩

/-- On views that are alike a pass issues like writes and fails alike. -/
theorem Program.trace_alike (p : Program) {snapshot snapshot' : List View} (limit : Nat)
    (h : snapshot.map (View.mapNumbers Number.mergeZeros) =
      snapshot'.map (View.mapNumbers Number.mergeZeros)) :
    List.Forall₂ Write.Alike (p.trace snapshot limit).writes (p.trace snapshot' limit).writes ∧
      (p.trace snapshot limit).failure = (p.trace snapshot' limit).failure := by
  have env : Environment.Alike Number.mergeZeros ⟨snapshot, p.functions⟩
      ⟨snapshot', p.functions⟩ := ⟨h, rfl⟩
  have run := simulates_strict.1
    (runRules_simulates unseen_mergeZeros env record_simulates limit p.rules) [] [] .nil
  unfold trace
  cases hr : runRules ⟨snapshot, p.functions⟩ record limit p.rules [] with
  | ok x writes =>
    rw [hr] at run
    obtain ⟨y, writes', hr', -, hw⟩ := run
    rw [hr']
    exact ⟨hw, rfl⟩
  | error e writes =>
    rw [hr] at run
    obtain ⟨writes', hr', hw⟩ := run
    rw [hr']
    exact ⟨hw, rfl⟩

theorem exists_alike {writes writes' : List Write} (h : List.Forall₂ Write.Alike writes writes')
    {w : Write} (hw : w ∈ writes) : ∃ v ∈ writes', w.Alike v := by
  induction h with
  | nil => cases hw
  | @cons a b _ _ hab _ ih =>
    rcases List.mem_cons.1 hw with rfl | hw
    · exact ⟨b, List.mem_cons_self, hab⟩
    · obtain ⟨v, hv, like⟩ := ih hw
      exact ⟨v, List.mem_cons_of_mem _ hv, like⟩

namespace Store
variable {a b : Store}

theorem Alike.applyAll (h : a.Alike b) {writes writes' : List Write}
    (hw : List.Forall₂ Write.Alike writes writes') :
    (a.applyAll writes).Alike (b.applyAll writes') := by
  refine List.rel_foldl (fun s t hst w v hwv => ?_) h hw
  rw [← hwv.id]
  exact hst.apply hwv.patch w.id

def HasDisabled (s : Store) (id : String) : Prop := ∃ e d, s.get? id = some e ∧ e.disabled = some d

theorem HasDisabled.apply {s : Store} {id : String} (h : s.HasDisabled id) (other : String)
    (p : Patch) : (s.apply other p).1.HasDisabled id := by
  obtain ⟨e, d, he, hd⟩ := h
  unfold HasDisabled
  rw [get?_apply]
  split
  · rename_i same
    rw [← same, he]
    have overrides := p.overrides_update e
    cases hp : p.disabled with
    | none => exact ⟨_, d, rfl, (overrides.keeps_disabled hp).trans hd⟩
    | some d' => exact ⟨_, d', rfl, overrides.disabled d' hp⟩
  · exact ⟨e, d, he, hd⟩

theorem hasDisabled_apply (s : Store) (id : String) {p : Patch} {d : Bool}
    (hp : p.disabled = some d) : (s.apply id p).1.HasDisabled id := by
  unfold HasDisabled
  rw [get?_apply, if_pos rfl]
  cases s.get? id with
  | none =>
    have content : p.hasContent = true := by
      rw [Patch.hasContent, hp, Option.isSome_some, Bool.or_true]
    rw [Patch.applyTo, if_pos content]
    exact ⟨_, d, rfl, hp⟩
  | some e => exact ⟨_, d, rfl, (p.overrides_update e).disabled d hp⟩

theorem HasDisabled.applyAll {s : Store} {id : String} (h : s.HasDisabled id)
    (writes : List Write) : (s.applyAll writes).HasDisabled id := by
  induction writes generalizing s with
  | nil => exact h
  | cons w writes ih => exact ih (h.apply w.id w.patch)

theorem hasDisabled_applyAll (s : Store) {writes : List Write} {w : Write} (hw : w ∈ writes)
    {d : Bool} (hd : w.patch.disabled = some d) : (s.applyAll writes).HasDisabled w.id := by
  induction writes generalizing s with
  | nil => cases hw
  | cons v writes ih =>
    rcases List.mem_cons.1 hw with rfl | hw
    · exact (s.hasDisabled_apply w.id hd).applyAll writes
    · exact ih _ hw

/-- What leaves one of two like stores alone leaves the other alone too, if there the
entry has a `disabled` of its own. -/
theorem Alike.absorbs (h : a.Alike b) {w v : Write} (like : w.Alike v)
    (absorbed : (b.apply v.id v.patch).2 = false)
    (given : ∀ d, w.patch.disabled = some d → a.HasDisabled w.id) :
    (a.apply w.id w.patch).2 = false := by
  rw [apply_changed] at absorbed ⊢
  rw [← like.id] at absorbed
  rcases h.entries w.id with ⟨ha, hb⟩ | ⟨e, f, ha, hb, same⟩
  · rw [hb] at absorbed
    rw [ha, Patch.applyTo, like.patch.hasContent]
    rw [Patch.applyTo] at absorbed
    split at absorbed
    · cases absorbed
    · rename_i content
      rw [if_neg content]
  · rw [hb] at absorbed
    obtain ⟨value, disabled⟩ := Entry.differ_eq_false.1 same
    obtain ⟨has_value, has_disabled⟩ := Patch.changes_eq_false.1 absorbed
    rw [ha]
    refine Patch.changes_eq_false.2 ⟨fun x hx => ?_, fun d hd => ?_⟩
    · have provided := like.patch.value
      cases hy : v.patch.value with
      | none =>
        rw [hx, hy] at provided
        cases provided
      | some y =>
        rw [hx, hy] at provided
        exact BEq.trans value (BEq.trans (has_value y hy) (BEq.symm provided))
    · obtain ⟨e', d', he', hd'⟩ := given d hd
      cases ha.symm.trans he'
      have other := has_disabled d (like.patch.disabled.symm.trans hd)
      rw [Entry.isDisabled, Entry.isDisabled, hd', other] at disabled
      rw [hd', show d' = d from disabled]

end Store

namespace Program
variable {p : Program} {elements : List Element} {limit : Nat} {a b s t : Store}

/-- Two runs that fail alike or both succeed, and leave like stores. -/
inductive EndAlike {α β : Type} : EStateM.Result EvaluationError Store α →
    EStateM.Result EvaluationError Store β → Prop
  | ok {x : α} {y : β} {s t : Store} (h : s.Alike t) : EndAlike (.ok x s) (.ok y t)
  | error {e : EvaluationError} {s t : Store} (h : s.Alike t) : EndAlike (.error e s) (.error e t)

theorem pass_alike (p : Program) (elements : List Element) (limit : Nat) (h : a.Alike b) :
    EndAlike (p.pass elements limit a) (p.pass elements limit b) := by
  obtain ⟨writes, failure⟩ := p.trace_alike limit (views_alike h elements)
  rw [pass_eq_replay, pass_eq_replay, Trace.result, Trace.result, failure]
  have stores := h.applyAll writes
  cases (p.trace (views elements b) limit).failure with
  | none => exact .ok stores
  | some e => exact .error stores

/-- If a pass leaves one of two like stores alone, then after a pass on the other store
the next one leaves that store alone. -/
theorem catch_up (h : a.Alike b) (hb : p.pass elements limit b = .ok false t)
    {changed : Bool} (ha : p.pass elements limit a = .ok changed s) :
    p.pass elements limit s = .ok false s := by
  obtain rfl := pass_unchanged hb
  have like : s.Alike t := by
    have stores := p.pass_alike elements limit h
    rw [ha, hb] at stores
    cases stores with
    | ok stores => exact stores
  obtain ⟨-, -, made⟩ := pass_ok ha
  obtain ⟨ended, unchanged, -⟩ := pass_ok hb
  obtain ⟨before, -⟩ := p.trace_alike limit (views_alike h.symm elements)
  obtain ⟨writes, failure⟩ := p.trace_alike limit (views_alike like elements)
  -- What sets a `disabled` in the next pass has set one on this store in the pass before,
  -- so the next pass leaves it alone as it leaves the other store.
  have absorbed : s.changedBy (p.trace (views elements s) limit).writes = false := by
    refine Store.changedBy_eq_false.2 fun w hw => ?_
    obtain ⟨v, hv, wv⟩ := exists_alike writes hw
    refine like.absorbs wv (Store.changedBy_eq_false.1 unchanged.symm v hv) fun d hd => ?_
    obtain ⟨u, hu, vu⟩ := exists_alike before hv
    have given : u.patch.disabled = some d :=
      (wv.patch.disabled.trans vu.patch.disabled).symm.trans hd
    have has := Store.hasDisabled_applyAll a hu given
    rwa [← made, ← (wv.id.trans vu.id)] at has
  rw [pass_eq_replay, Trace.result, failure, ended, absorbed, Store.applyAll_eq_self absorbed]

theorem settle_alike (p : Program) (elements : List Element) (limit reruns : Nat)
    (h : a.Alike b) :
    EndAlike (p.settle elements limit reruns a) (p.settle elements limit reruns b) := by
  induction reruns generalizing a b with
  | zero =>
    have ends := p.pass_alike elements limit h
    rw [settle_zero, settle_zero]
    generalize p.pass elements limit a = first at ends ⊢
    generalize p.pass elements limit b = second at ends ⊢
    cases ends with
    | ok stores => exact .ok stores
    | error stores => exact .error stores
  | succ reruns ih =>
    have ends := p.pass_alike elements limit h
    generalize ha : p.pass elements limit a = first at ends
    generalize hb : p.pass elements limit b = second at ends
    cases ends with
    | error stores =>
      rw [settle_of_error ha, settle_of_error hb]
      exact .error stores
    | @ok changed changed' s t stores =>
      cases changed <;> cases changed'
      case false.false =>
        rw [settle_of_pass ha, settle_of_pass hb]
        exact .ok stores
      case true.true =>
        have rest := ih stores
        rw [settle_of_change ha, settle_of_change hb]
        generalize p.settle elements limit reruns s = first at rest ⊢
        generalize p.settle elements limit reruns t = second at rest ⊢
        cases rest with
        | ok stores => exact .ok stores
        | error stores => exact .error stores
      case true.false =>
        rw [settle_of_change ha, settle_of_pass (catch_up h hb ha), settle_of_pass hb]
        exact .ok stores
      case false.true =>
        rw [settle_of_pass ha, settle_of_change hb, settle_of_pass (catch_up h.symm ha hb)]
        exact .ok stores

/-- The rule changes an entry without a `disabled` and leaves one alone that is enabled. -/
example :
    let enabling : Program :=
      ⟨"default", [], [("a", .object [("disabled", .literal (.bool false))])]⟩
    enabling.run boxElements .default ⟨[⟨"a", some (.number 0.0), none⟩]⟩ =
        .ok ⟨true, 2, false, []⟩ ⟨[⟨"a", some (.number 0.0), some false⟩]⟩ ∧
      enabling.run boxElements .default ⟨[⟨"a", some (.number 0.0), some false⟩]⟩ =
        .ok ⟨false, 1, false, []⟩ ⟨[⟨"a", some (.number 0.0), some false⟩]⟩ :=
  ⟨rfl, rfl⟩

theorem run_alike (p : Program) (elements : List Element) (limits : Limits) (h : a.Alike b) :
    EndAlike (p.run elements limits a) (p.run elements limits b) := by
  have ends := p.settle_alike elements limits.callDepth limits.reruns h
  rw [run_eq, run_eq]
  generalize p.settle elements limits.callDepth limits.reruns a = first at ends ⊢
  generalize p.settle elements limits.callDepth limits.reruns b = second at ends ⊢
  cases ends with
  | ok stores => exact .ok stores
  | error stores => exact .error stores

end Program

/-- A missing `disabled` and the default one are the same to an evaluation: on stores that
do not differ it fails alike or succeeds, and leaves stores that do not differ. -/
theorem evaluate_alike (ruleSet : RuleSet) (elements : List Element) (limits : Limits)
    (a b : Store) (ha : a.ids.Nodup) (hb : b.ids.Nodup)
    (same : statesDiffer a.entries b.entries = false) :
    (∃ report report' a' b', evaluate ruleSet elements limits a = .ok report a' ∧
        evaluate ruleSet elements limits b = .ok report' b' ∧
        statesDiffer a'.entries b'.entries = false) ∨
      ∃ e a' b', evaluate ruleSet elements limits a = .error e a' ∧
        evaluate ruleSet elements limits b = .error e b' ∧
        statesDiffer a'.entries b'.entries = false := by
  have h : a.Alike b := (Store.statesDiffer_eq_false ha hb).1 same
  have like {s t : Store} (h : s.Alike t) : statesDiffer s.entries t.entries = false :=
    (Store.statesDiffer_eq_false h.distinct_left h.distinct_right).2 h
  unfold evaluate
  cases Program.compile ruleSet elements with
  | error e => exact .inr ⟨_, a, b, rfl, rfl, same⟩
  | ok p =>
    have ends := p.run_alike elements limits h
    simp only [EStateM.adaptExcept]
    generalize p.run elements limits a = first at ends ⊢
    generalize p.run elements limits b = second at ends ⊢
    cases ends with
    | ok stores => exact .inl ⟨_, _, _, _, rfl, rfl, like stores⟩
    | error stores => exact .inr ⟨_, _, _, rfl, rfl, like stores⟩

def enabledElements : List Element :=
  [⟨"a", .number, ⟨0.0, 0.0⟩, ⟨0.0, 0.0⟩, none,
    [("default", "{ disabled: elements[0].value < 0 }")]⟩]

theorem evaluate_alike_zeros :
    let a : Store := ⟨[⟨"a", some (.number 0.0), none⟩]⟩
    let b : Store := ⟨[⟨"a", some (.number (-0.0)), some false⟩]⟩
    let ruleSet : RuleSet := ⟨"default", [], none, none⟩
    a.ids.Nodup ∧ b.ids.Nodup ∧ statesDiffer a.entries b.entries = false ∧
      ((∃ report report' a' b', evaluate ruleSet enabledElements .default a = .ok report a' ∧
          evaluate ruleSet enabledElements .default b = .ok report' b' ∧
          statesDiffer a'.entries b'.entries = false) ∨
        ∃ e a' b', evaluate ruleSet enabledElements .default a = .error e a' ∧
          evaluate ruleSet enabledElements .default b = .error e b' ∧
          statesDiffer a'.entries b'.entries = false) :=
  ⟨by decide, by decide, by decide,
    evaluate_alike _ enabledElements .default _ _ (by decide) (by decide) (by decide)⟩

end ScoreSheet
