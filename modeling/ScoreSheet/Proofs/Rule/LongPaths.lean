import ScoreSheet.Proofs.Rule.Boundary
import ScoreSheet.Proofs.Rule.Path
import ScoreSheet.Proofs.Rule.Spelling
import Mathlib.Tactic.Ring
set_option autoImplicit false

/-! Every level of operators and every nested expression can take up a whole allowance of
links in front of what the outer ones take up. The paths of the resulting trees lead
through left operands only. -/
namespace ScoreSheet.Rule

def Reads (parse : Parse Expr) (ends : Tokens → Prop) (words : List Word) (e : Expr) : Prop :=
  ∀ ts rest, ts.map Located.token = words.map Word.token → ends rest →
    parse (ts ++ rest) = .ok (e, rest)

def Attains (parse : Parse Expr) (ends : Tokens → Prop) (words : List Word) (n : Nat) : Prop :=
  ∃ e path, e.Path path ∧ path.length = n ∧ Reads parse ends words e

structure Closes (rest : Tokens) : Prop where
  ne_nil : rest ≠ []
  next : peek rest = .sign .rightParen ∨ peek rest = .stop

def further (s : Sign) : Nat → List Word
  | 0 => []
  | n + 1 => .sign s :: .name :: further s n

def Level.sign : Level → Sign
  | .alternative => .orOr
  | .conjunction => .andAnd
  | .equality => .equal
  | .comparison => .less
  | .sum => .plus
  | .product => .star

/-- Further operands on some levels, of which the strongest stands last in the list. -/
def row : List (Level × Nat) → List Word
  | [] => []
  | (level, n) :: counts => row counts ++ further level.sign n

theorem Level.operation?_sign (level : Level) :
    ∃ join, level.operation? level.sign = some join ∧
      ∀ e f path, e.Path path → (join e f).Path (.left :: path) := by
  cases level with
  | alternative | conjunction => exact ⟨_, rfl, fun _ _ _ h => .logicalLeft h⟩
  | equality | comparison | sum | product => exact ⟨_, rfl, fun _ _ _ h => .binaryLeft h⟩

theorem Level.operation?_sign_ne {level other : Level} (h : level ≠ other) :
    level.operation? other.sign = none := by
  cases level <;> cases other <;> first | rfl | exact absurd rfl h

theorem Closes.ends {rest : Tokens} (h : Closes rest) (levels : List Level) :
    Ends levels rest := by
  obtain ⟨t, rest, rfl⟩ := List.exists_cons_of_ne_nil h.ne_nil
  refine .of_token ?_ rest
  rcases h.next with hn | hn <;> rw [show t.token = _ from hn] <;> rfl

theorem Ends.further {level : Level} {levels : List Level} (hl : level ∉ levels) {n : Nat}
    {ts rest : Tokens} (ht : ts.map Located.token = (further level.sign n).map Word.token)
    (h : Ends (level :: levels) rest) : Ends levels (ts ++ rest) := by
  cases n with
  | zero =>
    rw [List.map_eq_nil_iff.1 ht]
    exact h.mono fun _ hm => List.mem_cons_of_mem _ hm
  | succ n =>
    obtain ⟨t, ts, rfl, hsign, -⟩ := List.map_eq_cons_iff.1 ht
    have hpeek : peek (t :: ts ++ rest) = .sign level.sign := hsign
    refine ⟨List.cons_ne_nil _ _, ?_, ?_, ?_, ?_⟩
    · rw [hpeek]; cases level <;> decide
    · rw [hpeek]; cases level <;> decide
    · rw [hpeek]; cases level <;> decide
    · intro other hm
      unfold Level.operationAt?
      rw [hpeek]
      exact Level.operation?_sign_ne fun h => hl (h ▸ hm)

theorem chain_reads {level : Level} {levels : List Level} {operand : Nat → Parse Expr}
    (hn : ∀ links, Reads (operand links) (Ends levels) [.name] (.name "a"))
    (hl : level ∉ levels) {links n : Nat} (hle : n ≤ links) {left : Expr} {path : List Turn}
    (hp : left.Path path) : ∃ e path', e.Path path' ∧ path'.length = path.length + n ∧
      Reads (chain level operand links left) (Ends (level :: levels))
        (further level.sign n) e := by
  induction n generalizing links left path with
  | zero =>
    refine ⟨left, path, hp, rfl, fun ts rest ht hr => ?_⟩
    rw [List.map_eq_nil_iff.1 ht]
    exact chain_stop (hr.operator level List.mem_cons_self)
  | succ n ih =>
    obtain ⟨links, rfl⟩ := Nat.exists_eq_add_of_le' (Nat.le_trans (Nat.le_add_left 1 n) hle)
    obtain ⟨join, hj, hjoin⟩ := level.operation?_sign
    obtain ⟨e, path', hp', hlen, hreads⟩ :=
      ih (Nat.le_of_succ_le_succ hle) (hjoin left (.name "a") path hp)
    refine ⟨e, path', hp', ?_, fun ts rest ht hr => ?_⟩
    · rw [hlen, List.length_cons]
      omega
    · obtain ⟨t, ts, rfl, hsign, ht⟩ := List.map_eq_cons_iff.1 ht
      obtain ⟨u, ts, rfl, hname, ht⟩ := List.map_eq_cons_iff.1 ht
      have hat : level.operationAt? (t :: u :: ts ++ rest) = some join := by
        unfold Level.operationAt?
        rw [show peek (t :: u :: ts ++ rest) = .sign level.sign from hsign]
        exact hj
      have right : operand links ([u] ++ (ts ++ rest)) = .ok (.name "a", ts ++ rest) :=
        hn links [u] (ts ++ rest) (congrArg (· :: []) hname) (hr.further hl ht)
      rw [chain, hat]
      dsimp only
      rw [show advance (t :: u :: ts ++ rest) = [u] ++ (ts ++ rest) from rfl, right]
      exact hreads ts rest ht hr

section Levels
variable {operand : Nat → Parse Expr}
  (hn : ∀ links, Reads (operand links) (Ends []) [.name] (.name "a"))
include hn

theorem operations_name (levels : List Level) (links : Nat) :
    Reads (operations operand levels links) (Ends levels) [.name] (.name "a") := by
  induction levels with
  | nil => exact hn links
  | cons level levels ih =>
    intro ts rest ht hr
    rw [operations, ih ts rest ht (hr.mono fun _ hm => List.mem_cons_of_mem _ hm)]
    exact chain_stop (hr.operator level List.mem_cons_self)

theorem operations_attains {links base : Nat} {words : List Word} {counts : List (Level × Nat)}
    (hd : (counts.map Prod.fst).Nodup) (hc : ∀ c ∈ counts, c.2 ≤ links)
    (ho : Attains (operand links) (Ends []) words base) :
    Attains (operations operand (counts.map Prod.fst) links) (Ends (counts.map Prod.fst))
      (words ++ row counts) (base + (counts.map Prod.snd).sum) := by
  induction counts with
  | nil =>
    rw [row, List.append_nil]
    exact ho
  | cons count counts ih =>
    obtain ⟨level, n⟩ := count
    obtain ⟨hl, hd⟩ := List.nodup_cons.1 hd
    obtain ⟨hn', hc⟩ := List.forall_mem_cons.1 hc
    obtain ⟨left, path, hp, hlen, hreads⟩ := ih hd hc
    obtain ⟨e, path', hp', hlen', hreads'⟩ :=
      chain_reads (operations_name hn (counts.map Prod.fst)) hl hn' hp
    refine ⟨e, path', hp', ?_, fun ts rest ht hr => ?_⟩
    · rw [hlen', hlen]
      change _ = base + (n + (counts.map Prod.snd).sum)
      omega
    · rw [row, ← List.append_assoc, List.map_append] at ht
      obtain ⟨ts, us, rfl, hi, hu⟩ := List.map_eq_append_iff.1 ht
      change operations operand (level :: counts.map Prod.fst) links _ = _
      rw [List.append_assoc, operations, hreads ts (us ++ rest) hi (hr.further hl hu)]
      exact hreads' us rest hu hr

end Levels

theorem peek_further {s : Sign} (hs : s ≠ .leftParen) {n : Nat} {ts rest : Tokens}
    (ht : ts.map Located.token = (further s n).map Word.token)
    (hr : peek rest ≠ .sign .leftParen) : peek (ts ++ rest) ≠ .sign .leftParen := by
  cases n with
  | zero =>
    rw [List.map_eq_nil_iff.1 ht]
    exact hr
  | succ n =>
    obtain ⟨t, ts, rfl, hsign, -⟩ := List.map_eq_cons_iff.1 ht
    intro hp
    exact hs (Token.sign.inj (hsign.symm.trans hp))

theorem selectors_reads (expression : Nat → Parse Expr) {links n : Nat} (hle : n ≤ links)
    {object : Expr} {path : List Turn} (hp : object.Path path) :
    ∃ e path', e.Path path' ∧ path'.length = path.length + n ∧
      Reads (selectors expression links object) (Ends []) (further .dot n) e := by
  induction n generalizing links object path with
  | zero =>
    refine ⟨object, path, hp, rfl, fun ts rest ht hr => ?_⟩
    rw [List.map_eq_nil_iff.1 ht]
    exact selectors_stop hr
  | succ n ih =>
    obtain ⟨links, rfl⟩ := Nat.exists_eq_add_of_le' (Nat.le_trans (Nat.le_add_left 1 n) hle)
    obtain ⟨e, path', hp', hlen, hreads⟩ :=
      ih (Nat.le_of_succ_le_succ hle) (Expr.Path.member hp : (object.member "a").Path _)
    refine ⟨e, path', hp', ?_, fun ts rest ht hr => ?_⟩
    · rw [hlen, List.length_cons]
      omega
    · obtain ⟨t, ts, rfl, hsign, ht⟩ := List.map_eq_cons_iff.1 ht
      obtain ⟨u, ts, rfl, hname, ht⟩ := List.map_eq_cons_iff.1 ht
      have behind : ts ++ rest ≠ [] := List.append_ne_nil_of_right_ne_nil _ hr.ne_nil
      have property : identifier (u :: (ts ++ rest)) = .ok ("a", ts ++ rest) :=
        identifier_cons hname behind
      rw [selectors, if_pos (show peek (t :: u :: ts ++ rest) = .sign .dot from hsign),
        show advance (t :: u :: ts ++ rest) = u :: (ts ++ rest) from rfl, property]
      dsimp only [bind, Except.bind]
      rw [if_neg (peek_further (by decide) ht hr.paren)]
      exact hreads ts rest ht hr

theorem primary_paren {expression : Parse Expr} {t u : Located} {ts rest : Tokens} {e : Expr}
    (ht : t.token = .sign .leftParen) (hu : u.token = .sign .rightParen) (hne : rest ≠ [])
    (he : expression (ts ++ u :: rest) = .ok (e, u :: rest)) :
    primary expression (t :: (ts ++ u :: rest)) = .ok (e, rest) := by
  unfold primary
  rw [show peek (t :: (ts ++ u :: rest)) = .sign .leftParen from ht]
  dsimp only
  rw [advance_cons t (List.append_ne_nil_of_right_ne_nil _ (List.cons_ne_nil _ _)), he]
  dsimp only [bind, Except.bind]
  rw [expect_cons hu hne]

section Operands
variable {deeper expression : Nat → Parse Expr}

theorem operand_name {links n : Nat} (hle : n ≤ links) :
    Attains (operand deeper expression links) (Ends []) (.name :: further .dot n) n := by
  obtain ⟨e, path, hp, hlen, hreads⟩ :=
    selectors_reads expression hle (Expr.Path.name "a")
  refine ⟨e, path, hp, by rw [hlen, List.length_nil, Nat.zero_add], fun ts rest ht hr => ?_⟩
  obtain ⟨t, ts, rfl, hname, ht⟩ := List.map_eq_cons_iff.1 ht
  have behind : ts ++ rest ≠ [] := List.append_ne_nil_of_right_ne_nil _ hr.ne_nil
  have no_sign : prefixOperator? (peek (t :: ts ++ rest)) = none := by
    rw [show peek (t :: ts ++ rest) = .name "a" from hname]
    rfl
  unfold operand
  rw [no_sign, List.cons_append,
    primary_name hname behind (peek_further (by decide) ht hr.paren)]
  exact hreads ts rest ht hr

theorem operand_paren {words : List Word} {links base n : Nat} (hle : n ≤ links)
    (he : Attains (expression links) Closes words base) :
    Attains (operand deeper expression links) (Ends [])
      (.sign .leftParen :: (words ++ .sign .rightParen :: further .dot n)) (base + n) := by
  obtain ⟨object, path, hp, hlen, hinner⟩ := he
  obtain ⟨e, path', hp', hlen', hreads⟩ := selectors_reads expression hle hp
  refine ⟨e, path', hp', by omega, fun ts rest ht hr => ?_⟩
  obtain ⟨t, ts, rfl, hopen, ht⟩ := List.map_eq_cons_iff.1 ht
  rw [List.map_append] at ht
  obtain ⟨ts, us, rfl, hi, hu⟩ := List.map_eq_append_iff.1 ht
  obtain ⟨u, us, rfl, hclose, hu⟩ := List.map_eq_cons_iff.1 hu
  have behind : us ++ rest ≠ [] := List.append_ne_nil_of_right_ne_nil _ hr.ne_nil
  have inner := hinner ts (u :: (us ++ rest)) hi ⟨List.cons_ne_nil _ _, .inl hclose⟩
  have no_sign : prefixOperator? (peek (t :: (ts ++ u :: (us ++ rest)))) = none := by
    rw [show peek (t :: (ts ++ u :: (us ++ rest))) = .sign .leftParen from hopen]
    rfl
  unfold operand
  rw [List.cons_append, List.append_assoc, List.cons_append, no_sign,
    primary_paren hopen hclose behind inner]
  exact hreads us rest hu hr

theorem operand_reads_name (links : Nat) :
    Reads (operand deeper expression links) (Ends []) [.name] (.name "a") := by
  intro ts rest ht hr
  obtain ⟨t, ts, rfl, hname, ht⟩ := List.map_eq_cons_iff.1 ht
  rw [List.map_eq_nil_iff.1 ht, List.singleton_append]
  have no_sign : prefixOperator? (peek (t :: rest)) = none := by
    rw [show peek (t :: rest) = .name "a" from hname]
    rfl
  unfold operand
  rw [no_sign, primary_name hname hr.ne_nil hr.paren]
  exact selectors_stop hr

end Operands

theorem conditional_attains {operand expression : Nat → Parse Expr} {words : List Word}
    {links n : Nat} (h : Attains (operations operand Level.all links) (Ends Level.all) words n) :
    Attains (conditional operand expression links) Closes words n := by
  obtain ⟨e, path, hp, hlen, hreads⟩ := h
  refine ⟨e, path, hp, hlen, fun ts rest ht hr => ?_⟩
  have no_branch : peek rest ≠ .sign .question := by
    intro hq
    rcases hr.next with hn | hn <;> rw [hn] at hq <;> cases hq
  unfold conditional
  rw [hreads ts rest ht (hr.ends Level.all)]
  dsimp only [bind, Except.bind]
  rw [if_neg no_branch]

theorem grammar_operand (room : Nat) :
    ∃ deeper expression, (grammar room).operand = operand deeper expression :=
  let ⟨deeper, h⟩ := grammar_operand_expression room
  ⟨deeper, _, h⟩

theorem expression_attains {room links base : Nat} {words : List Word} {counts : List (Level × Nat)}
    (hall : counts.map Prod.fst = Level.all) (hc : ∀ c ∈ counts, c.2 ≤ links)
    (ho : Attains ((grammar room).operand links) (Ends []) words base) :
    Attains ((grammar (room + 1)).expression links) Closes (words ++ row counts)
      (base + (counts.map Prod.snd).sum) := by
  obtain ⟨deeper, expression, hg⟩ := grammar_operand room
  have hn (links : Nat) : Reads ((grammar room).operand links) (Ends []) [.name] (.name "a") := by
    rw [hg]
    exact operand_reads_name links
  have whole := operations_attains hn (by rw [hall]; decide) hc ho
  rw [hall] at whole
  exact conditional_attains whole

/-- Links can be spread over levels as long as no level needs more than there are. -/
theorem exists_counts (levels : List Level) (links n : Nat) (h : n ≤ levels.length * links) :
    ∃ counts : List (Level × Nat), counts.map Prod.fst = levels ∧ (∀ c ∈ counts, c.2 ≤ links) ∧
      (counts.map Prod.snd).sum = n := by
  induction levels generalizing n with
  | nil =>
    rw [List.length_nil, Nat.zero_mul] at h
    exact ⟨[], rfl, fun c hc => absurd hc List.not_mem_nil, (Nat.le_zero.1 h).symm⟩
  | cons level levels ih =>
    rw [List.length_cons, Nat.succ_mul] at h
    obtain ⟨counts, hl, hc, ht⟩ := ih (n - min links n) (by omega)
    refine ⟨(level, min links n) :: counts, congrArg (level :: ·) hl,
      List.forall_mem_cons.2 ⟨Nat.min_le_left _ _, hc⟩, ?_⟩
    change min links n + (counts.map Prod.snd).sum = n
    omega

def opening : Nat → Word
  | 0 => .name
  | _ + 1 => .sign .leftParen

theorem operand_attains (room links n : Nat) (hle : n ≤ (7 * room + 1) * links) :
    ∃ words, Attains ((grammar room).operand links) (Ends []) (opening room :: words) n := by
  induction room generalizing n with
  | zero =>
    rw [Nat.mul_zero, Nat.zero_add, Nat.one_mul] at hle
    have ho : Attains (operand (fun _ => outOfRoom) (fun _ => outOfRoom) links) (Ends [])
        (.name :: further .dot n) n := operand_name hle
    exact ⟨_, ho⟩
  | succ room ih =>
    -- The expression in the parentheses takes what it can, in both of its parts.
    obtain ⟨base, spread, n, rfl, hbase, hspread, hn⟩ : ∃ base spread m,
        n = base + spread + m ∧ base ≤ (7 * room + 1) * links ∧ spread ≤ 6 * links ∧
        m ≤ links := by
      have parts : (7 * (room + 1) + 1) * links
          = (7 * room + 1) * links + 6 * links + links := by ring
      exact ⟨min n ((7 * room + 1) * links), min (n - (7 * room + 1) * links) (6 * links),
        n - (7 * room + 1) * links - 6 * links, by omega, by omega, by omega, by omega⟩
    obtain ⟨words, ho⟩ := ih base hbase
    obtain ⟨counts, hall, hc, rfl⟩ := exists_counts Level.all links spread hspread
    exact ⟨_, operand_paren hn (expression_attains hall hc ho)⟩

theorem grammar_attains (room links n : Nat) (hle : n ≤ 7 * (room + 1) * links) :
    ∃ words, Attains ((grammar (room + 1)).expression links) Closes
      (opening room :: words) n := by
  obtain ⟨base, spread, rfl, hbase, hspread⟩ : ∃ base spread, n = base + spread ∧
      base ≤ (7 * room + 1) * links ∧ spread ≤ 6 * links := by
    have parts : 7 * (room + 1) * links = (7 * room + 1) * links + 6 * links := by ring
    exact ⟨min n ((7 * room + 1) * links), n - (7 * room + 1) * links,
      by omega, by omega, by omega⟩
  obtain ⟨words, ho⟩ := operand_attains room links base hbase
  obtain ⟨counts, hall, hc, rfl⟩ := exists_counts Level.all links spread hspread
  exact ⟨_, expression_attains hall hc ho⟩

end ScoreSheet.Rule
