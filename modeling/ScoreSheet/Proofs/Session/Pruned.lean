import ScoreSheet.Proofs.Evaluation.Fading
import ScoreSheet.Proofs.Session.Edits
import ScoreSheet.Proofs.State.Comparison
set_option autoImplicit false

namespace ScoreSheet

open Rule

def View.held (v : View) : Value := (v.value.map Datum.toValue).getD .undefined

theorem Datum.truthy_toValue {d : Datum} (dropped : d.isKept = false) :
    d.toValue.truthy = false := by
  cases d with
  | bool b => exact dropped
  | number x => cases dropped
  | text s => exact dropped

namespace Store
variable {s t : Store}

/-- What is not worth saving is not true, and neither is no value. -/
theorem Fades.truthy (h : t.Fades s) (e : Element) :
    (View.ofElement t e).held.truthy = (View.ofElement s e).held.truthy := by
  unfold View.held View.ofElement
  dsimp only
  rcases h.value e.id with same | ⟨gone, dropped⟩
  · rw [same]
  · rw [gone]
    cases held : s.value? e.id with
    | none => rfl
    | some d =>
      have not_kept := Option.filter_eq_none_iff.1 dropped d held
      exact (Datum.truthy_toValue (Bool.eq_false_iff.2 not_kept)).symm

/-- If an element gets another value, it has this value, and the states differ. -/
theorem setValue_differs (once : s.ids.Nodup) {id : String} {v : Option Datum}
    (other : (s.value? id == v) = false) :
    (s.setValue id v).1.value? id = v ∧
      statesDiffer s.entries (s.setValue id v).1.entries = true := by
  rw [setValue_eq_apply]
  have set : (s.apply id ⟨some v, none⟩).1.value? id = v := by
    rw [value?_apply, if_pos rfl]
    exact if_neg (Bool.eq_false_iff.1 other)
  refine ⟨set, (Bool.not_eq_false _).mp fun same => ?_⟩
  have alike := (statesDiffer_eq_false once (nodup_apply once id _)).1 same
  have equal := alike.value? id
  rw [set, other] at equal
  cases equal

end Store

def toggled (value : Option Datum) : Option Datum := some (.bool !(value == some (.bool true)))

theorem toggled_differs (value : Option Datum) : (value == toggled value) = false := by
  rcases value with _ | ⟨_ | _⟩ | _ | _ <;> rfl

namespace EditContext
variable {elements : List Element} {p : Point} {scale : Float} {e : Element}

/-- Without a rule set, a click on an enabled checkbox toggles it, which is always a change. -/
theorem click_checkbox (limits : Limits) (hit : hitTest elements p scale = some e)
    (box : e.kind = .checkbox) {s : Store} (once : s.ids.Nodup) :
    ∃ t, (EditContext.mk elements none limits).click p scale s =
        (if s.isDisabled e.id then .done (.ok (.rejected e.id) s)
          else .done (.ok (.updated e.id true none) t)) ∧
      t.value? e.id = toggled (s.value? e.id) := by
  obtain ⟨set, differs⟩ := Store.setValue_differs once (toggled_differs (s.value? e.id))
  refine ⟨(s.setValue e.id (toggled (s.value? e.id))).1, ?_, set⟩
  unfold click
  rw [hit]
  dsimp only
  rw [if_pos box]
  split
  · rfl
  · rw [applyEdit_eq, evaluateActive_eq]
    dsimp only
    rw [← toggled, differs]

end EditContext

/-- What is restored from a state after pruning is taken for this state where a value is asked
for its truth or for `disabled`, by every function over many elements and by a click on a
checkbox. Nothing is pruned twice, and the ids stay in their order. The ids of a store are
different, since an entry is only added for an id that has none. -/
theorem prune_unseen (s : Store) (once : s.ids.Nodup) (elements : List Element) :
    let t := Store.ofEntries (prune s.entries)
    ((views elements t).map (fun v => (v.disabled, v.held.truthy)) =
      (views elements s).map fun v => (v.disabled, v.held.truthy)) ∧
    (∀ (a : Aggregate) (arguments : List Value),
      a.apply (views elements t) arguments = a.apply (views elements s) arguments) ∧
    (∀ (limits : Limits) (p : Point) (scale : Float) (e : Element),
      hitTest elements p scale = some e → e.kind = .checkbox →
      let click (u : Store) := (EditContext.mk elements none limits).click p scale u
      if s.isDisabled e.id then
        click s = .done (.ok (.rejected e.id) s) ∧ click t = .done (.ok (.rejected e.id) t)
      else
        ∃ s' t', click s = .done (.ok (.updated e.id true none) s') ∧
          click t = .done (.ok (.updated e.id true none) t') ∧
          s'.value? e.id = toggled (s.value? e.id) ∧ t'.value? e.id = toggled (s.value? e.id)) ∧
    (∀ entries : List Entry, prune (prune entries) = prune entries) ∧
    ((prune s.entries).map Entry.id).Sublist s.ids := by
  intro t
  have faded : t.Fades s := Store.fades_ofEntries_prune once
  refine ⟨?_, apply_congr (faded.tally elements), ?_, prune_prune, ids_prune_sublist s.entries⟩
  · unfold views
    rw [List.map_map, List.map_map]
    exact List.map_congr_left fun e _ => Prod.ext (faded.disabled e.id) (faded.truthy e)
  · intro limits p scale e hit box click
    obtain ⟨s', clicked, value⟩ := EditContext.click_checkbox limits hit box once
    obtain ⟨t', clicked', value'⟩ :=
      EditContext.click_checkbox limits hit box (Store.nodup_ofEntries (prune s.entries))
    rw [show (Store.ofEntries (prune s.entries)).isDisabled e.id = s.isDisabled e.id
      from faded.disabled e.id] at clicked'
    have same : toggled (t.value? e.id) = toggled (s.value? e.id) := by
      rw [toggled, toggled, faded.checked e.id]
    split
    · rename_i disabled
      rw [if_pos disabled] at clicked clicked'
      exact ⟨clicked, clicked'⟩
    · rename_i enabled
      rw [if_neg enabled] at clicked clicked'
      exact ⟨s', t', clicked, clicked', value, value'.trans same⟩

def twoBoxes : List Element :=
  [⟨"a", .checkbox, ⟨0.0, 0.0⟩, ⟨2.0, 2.0⟩, none, []⟩,
    ⟨"b", .checkbox, ⟨9.0, 9.0⟩, ⟨2.0, 2.0⟩, none, []⟩]

def unchecked : Store :=
  ⟨[⟨"a", some (.bool false), some false⟩, ⟨"b", some (.bool true), some true⟩]⟩

/-- The entry of the first box is dropped, and a click still checks it. -/
theorem prune_unseen_boxes :
    let pruned := Store.ofEntries (prune unchecked.entries)
    unchecked.ids.Nodup ∧ pruned.ids = ["b"] ∧
      (views twoBoxes pruned).map (fun v => (v.disabled, v.held.truthy)) =
        [(false, false), (true, true)] ∧
      ∃ t, (EditContext.mk twoBoxes none .default).click ⟨0.0, 0.0⟩ 1.0 pruned =
          .done (.ok (.updated "a" true none) t) ∧
        t.value? "a" = some (.bool true) := by
  intro pruned
  have once : unchecked.ids.Nodup := by decide
  obtain ⟨seen, -, click, -, -⟩ := prune_unseen unchecked once twoBoxes
  refine ⟨once, by decide, seen.trans (by decide), ?_⟩
  obtain ⟨-, t, -, clicked, -, value⟩ := click .default ⟨0.0, 0.0⟩ 1.0 _ rfl rfl
  exact ⟨t, clicked, value⟩

end ScoreSheet
