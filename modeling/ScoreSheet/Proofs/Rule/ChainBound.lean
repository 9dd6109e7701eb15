import ScoreSheet.Proofs.Result
import ScoreSheet.Proofs.Rule.Path
import ScoreSheet.Rule.Parser
set_option autoImplicit false

/-! Reading an operand behind an operator spends a link, so right turns are bounded by the
links. Operands in front of an operator are read before it spends any. So each of the six
levels and the selectors add a whole allowance of left turns, again in every nested
expression. -/
namespace ScoreSheet.Rule

def Yields {α : Type} (P : α → Prop) (parse : Parse α) : Prop :=
  ∀ ts x rest, parse ts = .ok (x, rest) → P x

theorem operation?_within {level : Level} {s : Sign} {join : Expr → Expr → Expr}
    (h : level.operation? s = some join) {turns turns' length : Nat} {e f : Expr}
    (he : e.Within turns length) (hf : f.Within turns' length) (ht : turns' < turns) :
    (join e f).Within turns (length + 1) := by
  have shape : (∃ op, join = .binary op) ∨ ∃ op, join = .logical op := by
    unfold Level.operation? at h
    split at h <;> cases h <;> first | exact .inl ⟨_, rfl⟩ | exact .inr ⟨_, rfl⟩
  rcases shape with ⟨op, rfl⟩ | ⟨op, rfl⟩
  · exact he.binary hf ht op
  · exact he.logical hf ht op

section Levels
variable {operand : Nat → Parse Expr} {factor : Nat}
  (ho : ∀ links, Yields (Expr.Within links (factor * links)) (operand links))
include ho

/-- The links that are left bound how much longer the paths can get. -/
theorem chain_within {level : Level} {turns length : Nat} {left e : Expr} {ts rest : Tokens}
    (links : Nat) (hl : links ≤ turns) (hf : factor * links ≤ length)
    (hw : left.Within turns length) (h : chain level operand links left ts = .ok (e, rest)) :
    e.Within turns (length + links) := by
  induction links generalizing length left ts with
  | zero =>
    unfold chain at h
    split at h
    · cases h
      exact hw
    · cases h
  | succ links ih =>
    unfold chain at h
    split at h
    · cases h
      exact hw.mono (by omega) (by omega)
    · rename_i join hj
      obtain ⟨⟨right, ts'⟩, hr, h⟩ := bind_ok h
      have smaller : factor * links ≤ length := by
        rw [Nat.mul_succ] at hf
        omega
      -- The right operand was read with one link fewer, which pays for the turn into it.
      have hright := (ho links _ _ _ hr).mono (Nat.le_refl _) smaller
      have joined : (join left right).Within turns (length + 1) := by
        unfold Level.operationAt? at hj
        split at hj
        · exact operation?_within hj hw hright (by omega)
        · cases hj
      have whole := ih (by omega) (by omega) joined h
      rwa [Nat.add_assoc, Nat.add_comm 1 links] at whole

theorem operations_within (levels : List Level) (links : Nat) :
    Yields (Expr.Within links ((factor + levels.length) * links))
      (operations operand levels links) := by
  induction levels generalizing links with
  | nil => exact ho links
  | cons level levels ih =>
    intro ts e rest h
    obtain ⟨⟨left, ts'⟩, hl, h⟩ := bind_ok h
    have whole := chain_within ih links (Nat.le_refl _) (Nat.le_refl _) (ih links _ _ _ hl) h
    have one_more : (factor + (level :: levels).length) * links
        = (factor + levels.length) * links + links := by
      rw [List.length_cons, ← Nat.add_assoc, Nat.succ_mul]
    rwa [one_more]

end Levels

section Brackets
variable {expression : Parse Expr} {turns length : Nat}
  (he : Yields (Expr.Within turns length) expression)
include he

theorem items_within (close : Sign) (fuel : Nat) :
    Yields (fun elements => ∀ item ∈ elements, item.value.Within turns length)
      (items expression close fuel) := by
  induction fuel with
  | zero =>
    intro ts elements rest h
    cases h
  | succ fuel ih =>
    intro ts elements rest h
    rw [items] at h
    split at h
    · cases h
      exact fun item hi => absurd hi List.not_mem_nil
    · dsimp only at h
      rw [ite_bind] at h
      obtain ⟨⟨item, ts'⟩, hi, h⟩ := bind_ok h
      have hitem : item.value.Within turns length := by
        split at hi <;>
        · obtain ⟨⟨e, ts'⟩, hr, hp⟩ := map_ok hi
          cases hp
          exact he _ _ _ hr
      dsimp only at h
      split at h
      · obtain ⟨⟨later, ts'⟩, hl, h⟩ := bind_ok h
        cases h
        exact List.forall_mem_cons.2 ⟨hitem, ih _ _ _ hl⟩
      · obtain ⟨ts', -, h⟩ := bind_ok h
        cases h
        exact List.forall_mem_singleton.2 hitem

theorem properties_within (fuel : Nat) :
    Yields (fun fields => ∀ f ∈ fields, f.2.Within turns length)
      (properties expression fuel) := by
  induction fuel with
  | zero =>
    intro ts fields rest h
    cases h
  | succ fuel ih =>
    intro ts fields rest h
    rw [properties] at h
    split at h
    · cases h
      exact fun f hf => absurd hf List.not_mem_nil
    · obtain ⟨⟨⟨name, alone⟩, ts'⟩, -, h⟩ := bind_ok h
      dsimp only at h
      rw [ite_bind, ite_bind] at h
      obtain ⟨⟨e, ts'⟩, hr, h⟩ := bind_ok h
      have hfield : e.Within turns length := by
        split at hr
        · exact he _ _ _ hr
        · split at hr
          · cases hr
            exact .name name
          · cases hr
      dsimp only at h
      split at h
      · obtain ⟨⟨later, ts'⟩, hl, h⟩ := bind_ok h
        cases h
        have hlater := ih _ _ _ hl
        unfold withProperty
        split
        · exact hlater
        · exact List.forall_mem_cons.2 ⟨hfield, hlater⟩
      · obtain ⟨ts', -, h⟩ := bind_ok h
        cases h
        exact List.forall_mem_singleton.2 hfield

theorem primary_within : Yields (Expr.Within turns length) (primary expression) := by
  intro ts e rest h
  unfold primary at h
  split at h
  case h_7 n _ =>
    split at h
    · obtain ⟨⟨arguments, ts'⟩, hi, h⟩ := bind_ok h
      cases h
      exact .call (items_within he _ _ _ _ _ hi)
    · cases h
      exact .name n
  case h_8 =>
    obtain ⟨⟨inner, ts'⟩, hi, h⟩ := bind_ok h
    obtain ⟨ts', -, h⟩ := bind_ok h
    cases h
    exact he _ _ _ hi
  case h_9 =>
    obtain ⟨⟨elements, ts'⟩, hi, h⟩ := bind_ok h
    cases h
    exact .array (items_within he _ _ _ _ _ hi)
  case h_10 =>
    obtain ⟨⟨fields, ts'⟩, hi, h⟩ := bind_ok h
    cases h
    exact .object (properties_within he _ _ _ _ hi)
  case h_11 => cases h
  all_goals
    cases h
    exact .literal _

end Brackets

section Operands
variable {deeper expression : Nat → Parse Expr} {factor : Nat}
  (he : ∀ links, Yields (Expr.Within links (factor * links)) (expression links))
include he

theorem selectors_within {turns length : Nat} {object e : Expr} {ts rest : Tokens}
    (links : Nat) (hl : links ≤ turns) (hf : factor * links ≤ length)
    (hw : object.Within turns length)
    (h : selectors expression links object ts = .ok (e, rest)) :
    e.Within turns (length + links) := by
  induction links generalizing length object ts with
  | zero =>
    unfold selectors at h
    split at h
    · cases h
    · split at h
      · cases h
      · cases h
        exact hw
  | succ links ih =>
    have smaller : factor * links ≤ length := by
      rw [Nat.mul_succ] at hf
      omega
    have reassoc : length + (links + 1) = length + 1 + links := by omega
    unfold selectors at h
    split at h
    · obtain ⟨⟨property, ts'⟩, -, h⟩ := bind_ok h
      dsimp only at h
      split at h
      · cases h
      · rw [reassoc]
        exact ih (by omega) (by omega) (hw.member property) h
    · split at h
      · obtain ⟨⟨property, ts'⟩, hp, h⟩ := bind_ok h
        obtain ⟨ts', -, h⟩ := bind_ok h
        have hproperty := (he links _ _ _ hp).mono (Nat.le_refl _) smaller
        rw [reassoc]
        exact ih (by omega) (by omega) (hw.index hproperty (by omega)) h
      · split at h
        · cases h
        · cases h
          exact hw.mono (Nat.le_refl _) (Nat.le_add_right _ _)

theorem operand_within
    (hd : ∀ links, Yields (Expr.Within links ((factor + 1) * links)) (deeper links))
    (links : Nat) :
    Yields (Expr.Within links ((factor + 1) * links)) (operand deeper expression links) := by
  intro ts e rest h
  unfold operand at h
  split at h
  · obtain ⟨⟨inner, ts'⟩, hi, h⟩ := bind_ok h
    cases h
    exact (hd links _ _ _ hi).unary
  · obtain ⟨⟨object, ts'⟩, ho, h⟩ := bind_ok h
    rw [Nat.succ_mul]
    exact selectors_within he links (Nat.le_refl _) (Nat.le_refl _)
      (primary_within (he links) _ _ _ ho) h

end Operands

theorem conditional_within {operand expression : Nat → Parse Expr} {factor : Nat}
    (ho : ∀ links, Yields (Expr.Within links ((factor + 1) * links)) (operand links))
    (he : ∀ links, Yields (Expr.Within links (factor * links)) (expression links))
    (links : Nat) :
    Yields (Expr.Within links ((factor + 7) * links)) (conditional operand expression links) := by
  intro ts e rest h
  have smaller : factor * links ≤ (factor + 7) * links :=
    Nat.mul_le_mul_right _ (Nat.le_add_right _ _)
  obtain ⟨⟨condition, ts'⟩, hc, h⟩ := bind_ok h
  have hcondition : condition.Within links ((factor + 7) * links) :=
    operations_within ho Level.all links _ _ _ hc
  dsimp only at h
  split at h
  · obtain ⟨⟨yes, ts'⟩, hy, h⟩ := bind_ok h
    obtain ⟨ts', -, h⟩ := bind_ok h
    obtain ⟨⟨no, ts'⟩, hn, h⟩ := bind_ok h
    cases h
    exact .conditional hcondition ((he links _ _ _ hy).mono (Nat.le_refl _) smaller)
      ((he links _ _ _ hn).mono (Nat.le_refl _) smaller)
  · cases h
    exact hcondition

theorem outOfRoom_yields {α : Type} (P : α → Prop) : Yields P outOfRoom := by
  intro ts x rest h
  cases h

/-- Seven allowances a nested expression: one for each level and one for selectors. -/
theorem grammar_within (room links : Nat) :
    Yields (Expr.Within links (7 * room * links)) ((grammar room).expression links) ∧
      Yields (Expr.Within links ((7 * room + 1) * links)) ((grammar room).operand links) := by
  induction room generalizing links with
  | zero =>
    exact ⟨outOfRoom_yields _, operand_within (fun _ => outOfRoom_yields _)
      (fun _ => outOfRoom_yields _) links⟩
  | succ room ih =>
    have hexpression (links : Nat) : Yields (Expr.Within links (7 * (room + 1) * links))
        ((grammar (room + 1)).expression links) :=
      conditional_within (fun links => (ih links).2) (fun links => (ih links).1) links
    -- Operands have the room of the expression around them when they are in brackets.
    refine ⟨hexpression links, operand_within hexpression (fun links ts e rest h => ?_) links⟩
    exact ((ih links).2 ts e rest h).mono (Nat.le_refl _)
      (Nat.mul_le_mul_right _ (by omega))

theorem expression_within (room : Nat) :
    Yields (Expr.Within chainLimit (7 * room * chainLimit)) (expression room) :=
  (grammar_within room chainLimit).1

end ScoreSheet.Rule
