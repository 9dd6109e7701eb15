import ScoreSheet.Proofs.Rule.ChainBound
set_option autoImplicit false

namespace ScoreSheet.Rule

def Stmt.All (P : Expr → Prop) (s : Stmt) : Prop := ∀ e, s.Contains e → P e

namespace Stmt.All
variable {P : Expr → Prop}

theorem expr {e : Expr} (h : P e) : (Stmt.expr e).All P := by
  rintro _ ⟨⟩
  exact h

theorem declare {name : String} {e : Expr} (h : P e) : (Stmt.declare name e).All P := by
  rintro _ ⟨⟩
  exact h

theorem assign {name : String} {e : Expr} (h : P e) : (Stmt.assign name e).All P := by
  rintro _ ⟨⟩
  exact h

theorem block {body : List Stmt} (h : ∀ s ∈ body, s.All P) : (Stmt.block body).All P := by
  intro e he
  cases he with
  | block hs he => exact h _ hs e he

theorem branch {c : Expr} {yes : List Stmt} {no : Option (List Stmt)} (hc : P c)
    (hy : ∀ s ∈ yes, s.All P) (hn : ∀ body ∈ no, ∀ s ∈ body, s.All P) :
    (Stmt.branch c yes no).All P := by
  intro e he
  cases he with
  | condition => exact hc
  | yes hs he => exact hy _ hs e he
  | no hs he => exact hn _ rfl _ hs e he

theorem returned {e : Option Expr} (h : ∀ x ∈ e, P x) : (Stmt.return e).All P := by
  intro x hx
  cases hx with
  | «return» => exact h _ rfl

end Stmt.All

theorem endStatement_eq {s : Stmt} {s' : Option Stmt} {ts rest : Tokens}
    (h : endStatement s ts = .ok (s', rest)) : s' = some s := by
  unfold endStatement at h
  split at h <;> cases h <;> rfl

section Statements
variable {P : Expr → Prop} {expression : Parse Expr} {statement : Parse (Option Stmt)}
  (hs : Yields (fun s => ∀ x ∈ s, x.All P) statement)
include hs

theorem blockBody_all (fuel : Nat) :
    Yields (fun body => ∀ s ∈ body, s.All P) (blockBody statement fuel) := by
  induction fuel with
  | zero =>
    intro ts body rest h
    cases h
  | succ fuel ih =>
    intro ts body rest h
    rw [blockBody] at h
    split at h
    · cases h
      exact fun s hs => absurd hs List.not_mem_nil
    · cases h
    · obtain ⟨⟨s, ts'⟩, h1, h⟩ := bind_ok h
      obtain ⟨⟨later, ts'⟩, h2, h⟩ := bind_ok h
      cases h
      intro x hx
      rcases List.mem_append.1 hx with hx | hx
      · exact hs _ _ _ h1 x (Option.mem_toList.1 hx)
      · exact ih _ _ _ h2 x hx

theorem branchBody_all : Yields (fun body => ∀ s ∈ body, s.All P) (branchBody statement) := by
  intro ts body rest h
  unfold branchBody at h
  split at h
  · exact blockBody_all hs _ _ _ _ h
  · obtain ⟨⟨s, ts'⟩, h1, h⟩ := map_ok h
    cases h
    exact fun x hx => hs _ _ _ h1 x (Option.mem_toList.1 hx)

theorem statementForm_all (he : Yields P expression) :
    Yields (fun s => ∀ x ∈ s, x.All P) (statementForm expression statement) := by
  have ended {s : Stmt} {s' : Option Stmt} {ts rest : Tokens}
      (h : endStatement s ts = .ok (s', rest)) (hp : s.All P) : ∀ x ∈ s', x.All P := by
    intro x hx
    rw [endStatement_eq h] at hx
    cases hx
    exact hp
  intro ts s rest h
  unfold statementForm at h
  split at h
  case h_1 =>
    cases h
    exact fun x hx => absurd hx (Option.not_mem_none x)
  case h_2 =>
    obtain ⟨⟨body, ts'⟩, hb, h⟩ := bind_ok h
    cases h
    rintro _ ⟨⟩
    exact .block (blockBody_all hs _ _ _ _ hb)
  case h_3 =>
    obtain ⟨ts', -, h⟩ := bind_ok h
    obtain ⟨⟨condition, ts'⟩, hc, h⟩ := bind_ok h
    obtain ⟨ts', -, h⟩ := bind_ok h
    obtain ⟨⟨yes, ts'⟩, hy, h⟩ := bind_ok h
    have hcondition := he _ _ _ hc
    have hyes := branchBody_all hs _ _ _ hy
    dsimp only at h
    split at h
    · obtain ⟨⟨no, ts'⟩, hn, h⟩ := bind_ok h
      cases h
      rintro _ ⟨⟩
      refine .branch hcondition hyes ?_
      rintro _ ⟨⟩
      exact branchBody_all hs _ _ _ hn
    · cases h
      rintro _ ⟨⟩
      exact .branch hcondition hyes (fun _ hn => absurd hn (Option.not_mem_none _))
  case h_4 =>
    split at h
    case h_4 =>
      obtain ⟨⟨e, ts'⟩, hr, h⟩ := bind_ok h
      refine ended h (.returned ?_)
      rintro _ ⟨⟩
      exact he _ _ _ hr
    all_goals exact ended h (.returned fun _ hx => absurd hx (Option.not_mem_none _))
  case h_5 =>
    obtain ⟨⟨name, ts'⟩, -, h⟩ := bind_ok h
    obtain ⟨ts', -, h⟩ := bind_ok h
    obtain ⟨⟨e, ts'⟩, hr, h⟩ := bind_ok h
    exact ended h (.declare (he _ _ _ hr))
  case h_6 =>
    split at h
    · obtain ⟨⟨e, ts'⟩, hr, h⟩ := bind_ok h
      exact ended h (.assign (he _ _ _ hr))
    · obtain ⟨⟨e, ts'⟩, hr, h⟩ := bind_ok h
      exact ended h (.expr (he _ _ _ hr))
  case h_7 =>
    obtain ⟨⟨e, ts'⟩, hr, h⟩ := bind_ok h
    exact ended h (.expr (he _ _ _ hr))

end Statements

/-- A statement has spent some room before its expressions are read. -/
theorem statement_all {P : Expr → Prop} (room : Nat)
    (h : ∀ r < room, Yields P (expression r)) :
    Yields (fun s => ∀ x ∈ s, x.All P) (statement room) := by
  induction room with
  | zero => exact outOfRoom_yields _
  | succ room ih =>
    exact statementForm_all (ih fun r hr => h r (Nat.lt_succ_of_lt hr))
      (h room (Nat.lt_succ_self room))

theorem statements_all {P : Expr → Prop} (h : ∀ r < nestingLimit, Yields P (expression r))
    (fuel : Nat) {ts : Tokens} {body : List Stmt} (hb : statements fuel ts = .ok body) :
    ∀ s ∈ body, s.All P := by
  induction fuel generalizing ts body with
  | zero =>
    unfold statements expectStop at hb
    split at hb
    · cases hb
      exact fun s hs => absurd hs List.not_mem_nil
    · cases hb
  | succ fuel ih =>
    rw [statements] at hb
    split at hb
    · cases hb
      exact fun s hs => absurd hs List.not_mem_nil
    · obtain ⟨⟨s, ts'⟩, h1, hb⟩ := bind_ok hb
      obtain ⟨later, h2, hb⟩ := bind_ok hb
      cases hb
      intro x hx
      rcases List.mem_append.1 hx with hx | hx
      · exact statement_all nestingLimit h _ _ _ h1 x (Option.mem_toList.1 hx)
      · exact ih h2 x hx

theorem parseRule_within {text : String} {e : Expr} (h : parseRule text = .ok (some e)) :
    e.Within chainLimit (7 * nestingLimit * chainLimit) := by
  obtain ⟨ts, -, h⟩ := bind_ok h
  dsimp only at h
  split at h
  · cases h
  · obtain ⟨⟨e', ts'⟩, he, h⟩ := bind_ok h
    unfold expectStop at h
    split at h
    · cases h
      exact expression_within nestingLimit _ _ _ he
    · cases h

theorem parseBody_within {text : String} {body : List Stmt} (h : parseBody text = .ok body) :
    ∀ s ∈ body, s.All (Expr.Within chainLimit (7 * (nestingLimit - 1) * chainLimit)) := by
  obtain ⟨ts, -, h⟩ := bind_ok h
  refine statements_all (fun r hr ts e rest he => ?_) _ h
  refine (expression_within r _ _ _ he).mono (Nat.le_refl _) ?_
  exact Nat.mul_le_mul_right _ (Nat.mul_le_mul_left _ (by omega))

end ScoreSheet.Rule
