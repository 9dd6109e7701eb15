import ScoreSheet.Proofs.Rule.PrintedStatement
import ScoreSheet.Proofs.Rule.StatementLimit
set_option autoImplicit false

namespace ScoreSheet.Rule

theorem statements_reaches {body : List Stmt} (h : ∀ s ∈ body, s.Normal) {fuel : Nat}
    {ts : Tokens} {t : Located} (ht : ts.map Located.token = bodyWords body)
    (stop : t.token = .stop) (hf : ts.length ≤ fuel) :
    Reaches (statements fuel (ts ++ [t])) (.ok body) := by
  induction body generalizing fuel ts with
  | nil =>
    rw [List.map_eq_nil_iff.1 ht, List.nil_append]
    have finished : peek [t] = .stop := stop
    cases fuel <;> simp only [statements, expectStop, if_pos finished, Reaches.refl]
  | cons s body ih =>
    obtain ⟨normal, later⟩ := List.forall_mem_cons.1 h
    obtain ⟨ts, us, rfl, hts, hus⟩ := List.map_eq_append_iff.1 ht
    obtain ⟨u, v, words, begins⟩ := normal.words_cons
    have first := peek_words (hts.trans words) (us ++ [t])
    have nonempty : 0 < ts.length := length_pos_words (hts.trans words)
    rw [List.length_append] at hf
    obtain ⟨fuel, rfl⟩ := Nat.exists_eq_add_of_le' (show 0 < fuel by omega)
    have enough : us.length ≤ fuel := by omega
    have ends : EndsStatement (us ++ [t]) :=
      endsStatement_body later hus ⟨List.cons_ne_nil _ _, fun hp => nomatch stop.symm.trans hp⟩
    rw [List.append_assoc, statements, if_neg (by rw [first]; exact begins.stop)]
    refine ((normal.accepted nestingLimit _ _ hts ends).bind _).trans ?_
    exact (ih later hus enough).bind _

/-- The tokens of a printed text: its words and the stop. -/
theorem tokenize_printed {w : List Token} (h : Printable w) : ∃ ts t,
    tokenize (.ofList (spaced w)) = .ok (ts ++ [t]) ∧ ts.map Located.token = w ∧
      t.token = .stop := by
  obtain ⟨all, read, tokens⟩ := tokenize_spaced h
  obtain ⟨ts, t, hts, ht, parts⟩ := exists_last tokens
  have whole := parts []
  rw [List.append_nil] at whole
  exact ⟨ts, t, whole ▸ read, hts, ht⟩

theorem parseBody_printed {body : List Stmt} (h : ∀ s ∈ body, s.Normal) : ∃ ts t,
    parseBody (printBody body) = statements (ts ++ [t]).length (ts ++ [t]) ∧
      ts.map Located.token = bodyWords body ∧ t.token = .stop ∧ Ended (ts ++ [t]) := by
  obtain ⟨ts, t, read, hts, stop⟩ :=
    tokenize_printed (printable_body fun s hs => (h s hs).printable)
  refine ⟨ts, t, ?_, hts, stop, tokenize_ended read⟩
  unfold parseBody printBody
  rw [read]
  rfl

theorem parseBody_reaches {body : List Stmt} (h : ∀ s ∈ body, s.Normal) :
    Reaches (parseBody (printBody body)) (.ok body) := by
  obtain ⟨ts, t, parsed, hts, stop, -⟩ := parseBody_printed h
  rw [parsed]
  exact statements_reaches h hts stop (by simp)

theorem parseBody_short {body : List Stmt} (h : ∀ s ∈ body, s.Normal)
    (short : (bodyWords body).length + 1 < nestingLimit) :
    parseBody (printBody body) = .ok body := by
  rcases parseBody_reaches h with parsed | ⟨e, failed, limit⟩
  · exact parsed
  · obtain ⟨ts, t, parsed, hts, -, ended⟩ := parseBody_printed h
    have outcome := statements_outcome (ts ++ [t]).length ended
    rw [← parsed, failed] at outcome
    have long : nestingLimit ≤ (ts ++ [t]).length := outcome limit
    rw [← hts, List.length_map] at short
    rw [List.length_append, List.length_singleton] at long
    exact absurd short (Nat.not_lt.2 long)

/-- A comma stands behind a part unless it is the last one. -/
theorem withCommas_cons (trailing : Bool) (w : List Token) (parts : List (List Token)) :
    withCommas trailing (w :: parts) = w ++ .sign .comma :: withCommas trailing parts ∨
      parts = [] ∧ withCommas trailing (w :: parts) = w := by
  cases parts with
  | nil =>
    cases trailing
    · exact .inr ⟨rfl, rfl⟩
    · exact .inl rfl
  | cons v parts => exact .inl rfl

theorem printable_withCommas {parts : List (List Token)} (h : ∀ w ∈ parts, Printable w)
    (trailing : Bool) : Printable (withCommas trailing parts) := by
  induction parts with
  | nil => exact printable_nil
  | cons w parts ih =>
    obtain ⟨hw, later⟩ := List.forall_mem_cons.1 h
    rcases withCommas_cons trailing w parts with words | ⟨-, words⟩
    · simp [words, hw, ih later]
    · rwa [words]

theorem printable_parts {p : Parameters} (h : ∀ n ∈ p.all, IsName n) :
    ∀ w ∈ p.parts, Printable w := by
  obtain ⟨names, rest⟩ := List.forall_mem_append.1 h
  refine List.forall_mem_append.2 ⟨?_, ?_⟩
  · exact List.forall_mem_map.2 fun n hn => by simp [names n hn]
  · exact List.forall_mem_map.2 fun n hn => by simp [rest n hn]

section Parameters
variable {t : Located} (stop : t.token = .stop) {trailing : Bool}
include stop

theorem parameters_stop (fuel : Nat) : parameters fuel [t] = .ok ⟨[], none⟩ := by
  have finished : peek [t] = .stop := stop
  cases fuel <;> simp only [parameters, expectStop, if_pos finished]

/-- A comma in front of the stop is passed over. -/
theorem expectStop_lastComma {α : Type} (x : α) {us : Tokens}
    (h : us.map Located.token = [] ∨ us.map Located.token = [.sign .comma]) :
    expectStop x (if peek (us ++ [t]) = .sign .comma then advance (us ++ [t]) else us ++ [t]) =
      .ok x := by
  have finished : peek [t] = .stop := stop
  rcases h with none | comma
  · rw [List.map_eq_nil_iff.1 none, List.nil_append, if_neg (by simp [finished]), expectStop,
      if_pos finished]
  · obtain ⟨c, us, rfl, hc, hus⟩ := List.map_eq_cons_iff.1 comma
    rw [List.map_eq_nil_iff.1 hus, if_pos (show peek ([c] ++ [t]) = _ from hc)]
    exact if_pos finished

theorem parameters_rest {n : String} {ts : Tokens}
    (ht : ts.map Located.token = withCommas trailing [[.sign .ellipsis, .name n]])
    (fuel : Nat) : parameters (fuel + 1) (ts ++ [t]) = .ok ⟨[], some n⟩ := by
  obtain ⟨v, words, hv⟩ : ∃ v, withCommas trailing [[.sign .ellipsis, .name n]] =
      .sign .ellipsis :: .name n :: v ∧ (v = [] ∨ v = [.sign .comma]) := by
    cases trailing
    · exact ⟨[], rfl, .inl rfl⟩
    · exact ⟨_, rfl, .inr rfl⟩
  obtain ⟨e, us, rfl, he, hus⟩ := List.map_eq_cons_iff.1 (ht.trans words)
  obtain ⟨u, us, rfl, hu, rfl⟩ := List.map_eq_cons_iff.1 hus
  have ellipsis (rest : Tokens) : peek (e :: rest) = .sign .ellipsis := he
  have behind : us ++ [t] ≠ [] := List.append_ne_nil_of_right_ne_nil _ (List.cons_ne_nil _ _)
  rw [List.cons_append, List.cons_append, parameters, if_neg (by simp [ellipsis]),
    if_pos (ellipsis _), advance_cons e (List.cons_ne_nil _ _), identifier_cons hu behind]
  exact expectStop_lastComma stop _ hv

theorem parameters_last {n : String} {u : Located} (hu : u.token = .name n) (fuel : Nat) :
    parameters (fuel + 1) [u, t] = .ok ⟨[n], none⟩ := by
  have finished : peek [t] = .stop := stop
  have name : peek [u, t] = .name n := hu
  rw [parameters, if_neg (by simp [name]), if_neg (by simp [name]),
    identifier_cons hu (List.cons_ne_nil _ _)]
  dsimp only [bind, Except.bind]
  rw [if_neg (by simp [finished]), expectStop, if_pos finished]

omit stop in
theorem parameters_more {n : String} {u c : Located} (hu : u.token = .name n)
    (hc : c.token = .sign .comma) {rest : Tokens} (hr : rest ≠ []) {fuel : Nat} {p : Parameters}
    (later : parameters fuel rest = .ok p) :
    parameters (fuel + 1) (u :: c :: rest) = .ok ⟨n :: p.names, p.rest⟩ := by
  have name : peek (u :: c :: rest) = .name n := hu
  rw [parameters, if_neg (by simp [name]), if_neg (by simp [name]),
    identifier_cons hu (List.cons_ne_nil _ _)]
  dsimp only [bind, Except.bind]
  rw [if_pos (show peek (c :: rest) = _ from hc), advance_cons c hr, later]

theorem parameters_reads (p : Parameters) {fuel : Nat} {ts : Tokens}
    (ht : ts.map Located.token = withCommas trailing p.parts) (hf : ts.length ≤ fuel) :
    parameters fuel (ts ++ [t]) = .ok p := by
  obtain ⟨names, rest⟩ := p
  induction names generalizing fuel ts with
  | nil =>
    cases rest with
    | none =>
      rw [List.map_eq_nil_iff.1 ht, List.nil_append]
      exact parameters_stop stop fuel
    | some n =>
      have nonempty : ts ≠ [] := by
        rintro rfl
        cases trailing <;> cases ht
      obtain ⟨fuel, rfl⟩ :=
        Nat.exists_eq_add_of_le' (Nat.lt_of_lt_of_le (List.length_pos_iff.2 nonempty) hf)
      exact parameters_rest stop ht fuel
  | cons n names ih =>
    rcases withCommas_cons trailing [.name n] (Parameters.parts ⟨names, rest⟩) with
      words | ⟨last, words⟩
    · obtain ⟨u, us, rfl, hu, hus⟩ := List.map_eq_cons_iff.1 (ht.trans words)
      obtain ⟨c, us, rfl, hc, hus⟩ := List.map_eq_cons_iff.1 hus
      obtain ⟨fuel, rfl⟩ := Nat.exists_eq_add_of_le' (Nat.lt_of_lt_of_le (Nat.zero_lt_succ _) hf)
      have enough : us.length ≤ fuel := Nat.le_of_succ_le (Nat.le_of_succ_le_succ hf)
      exact parameters_more hu hc (List.append_ne_nil_of_right_ne_nil us (List.cons_ne_nil t []))
        (ih enough hus)
    · obtain ⟨u, us, rfl, hu, hus⟩ := List.map_eq_cons_iff.1 (ht.trans words)
      obtain ⟨fuel, rfl⟩ := Nat.exists_eq_add_of_le' (Nat.lt_of_lt_of_le (Nat.zero_lt_succ _) hf)
      obtain ⟨rfl, rfl⟩ : names = [] ∧ rest = none := by simpa [Parameters.parts] using last
      rw [List.map_eq_nil_iff.1 hus]
      exact parameters_last stop hu fuel

end Parameters

theorem parseParameters_reads {p : Parameters} (h : ∀ n ∈ p.all, IsName n) (trailing : Bool) :
    parseParameters (printParameters p trailing) = .ok p := by
  obtain ⟨ts, t, read, hts, stop⟩ :=
    tokenize_printed (printable_withCommas (printable_parts h) trailing)
  unfold parseParameters printParameters
  rw [read]
  exact parameters_reads stop p hts (by simp)

/-- A body in normal form is parsed again as it was, or meets a limit, which a short one does
not; a list of parameters is always parsed again as it was. -/
theorem parse_printed :
    (∀ body : List Stmt, (∀ s ∈ body, s.Normal) →
      (parseBody (printBody body) = .ok body ∨ ∃ e, parseBody (printBody body) = .error e ∧
        (e.fault.message = "nesting too deep" ∨ e.fault.message = "expression too long")) ∧
      ((bodyWords body).length < 60 → parseBody (printBody body) = .ok body)) ∧
    ∀ (p : Parameters) (trailing : Bool), (∀ n ∈ p.all, IsName n) →
      parseParameters (printParameters p trailing) = .ok p := by
  refine ⟨fun body h => ⟨?_, fun short => parseBody_short h ?_⟩,
    fun p trailing h => parseParameters_reads h trailing⟩
  · refine (parseBody_reaches h).imp_right ?_
    rintro ⟨⟨fault, position⟩, failed, limit⟩
    refine ⟨_, failed, ?_⟩
    cases limit
    · exact .inl rfl
    · exact .inr rfl
  · have room : nestingLimit = 64 := rfl
    omega

/-- `let n = 1.5 ; if ( n ) { n = ( n + 1.5 ) * n ; } else { ( { "k" : n } ) ; }` -/
def branchingBody : List Stmt :=
  [.declare "n" (.literal (.number 1.5)),
    .branch (.name "n")
      [.assign "n" (.binary .multiply
        (.binary .add (.name "n") (.literal (.number 1.5))) (.name "n"))]
      (some [.expr (.object [("k", .name "n")])])]

theorem normal_branchingBody : ∀ s ∈ branchingBody, s.Normal := by
  have numeral : (Expr.literal (.number 1.5)).Normal := .literal ⟨⟨_, rfl⟩, by decide +kernel⟩
  have name : (Expr.name "n").Normal := .name (by decide)
  have object : (Expr.object [("k", .name "n")]).Normal :=
    .object (by decide) (List.forall_mem_singleton.2 name)
  refine List.forall_mem_cons.2 ⟨.declare (by decide) numeral, List.forall_mem_singleton.2 ?_⟩
  refine .branch name (List.forall_mem_singleton.2 ?_) ?_
  · exact .assign (by decide) (.binary (.binary name numeral) name)
  · rintro _ ⟨⟩
    exact List.forall_mem_singleton.2 (.expr object)

theorem parse_printed_branching :
    ((∀ s ∈ branchingBody, s.Normal) ∧ (bodyWords branchingBody).length < 60 ∧
      parseBody (printBody branchingBody) = .ok branchingBody) ∧
    (∀ n ∈ ["a", "b", "more"], IsName n) ∧
      parseParameters (printParameters ⟨["a", "b"], some "more"⟩ true) =
        .ok ⟨["a", "b"], some "more"⟩ := by
  have short : (bodyWords branchingBody).length < 60 := by decide
  have names : ∀ n ∈ ["a", "b", "more"], IsName n := by decide
  exact ⟨⟨normal_branchingBody, short, (parse_printed.1 _ normal_branchingBody).2 short⟩, names,
    parse_printed.2 ⟨["a", "b"], some "more"⟩ true names⟩

end ScoreSheet.Rule
