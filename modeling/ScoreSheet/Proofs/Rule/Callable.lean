import ScoreSheet.Proofs.Rule.Acceptance
import ScoreSheet.Proofs.Rule.Layout
import ScoreSheet.Rule.Function
set_option autoImplicit false

namespace ScoreSheet.Rule
open Text

def tokensOf (text : String) : Except SyntaxError (List Token) :=
  (tokenize text).map fun ts => ts.map Located.token

def wordToken (word : String) : Token :=
  (Keyword.ofWord? word).elim (.name word) .keyword

theorem wordToken_keyword {k : Keyword} {word : String} (h : word ∈ k.words) :
    wordToken word = .keyword k := by
  rw [wordToken, Keyword.ofWord?_eq_some.2 h]
  rfl

theorem wordToken_name {word : String} (h : ∀ k : Keyword, word ∉ k.words) :
    wordToken word = .name word := by
  have no_keyword : Keyword.ofWord? word = none :=
    Option.eq_none_iff_forall_ne_some.2 fun k hk => h k (Keyword.ofWord?_eq_some.1 hk)
  rw [wordToken, no_keyword]
  rfl

theorem isIdentifier_iff {s : String} : isIdentifier s ↔
    ∃ c cs, s.toList = c :: cs ∧ isNameStart c ∧ ∀ d ∈ cs, isNameChar d := by
  unfold isIdentifier
  cases s.toList with
  | nil => simp
  | cons c cs => simp [and_assoc]

/-- A word in front of something else takes one token. -/
theorem readTokens_word {c : Char} {cs rest : List Char} (hc : isNameStart c)
    (hcs : ∀ d ∈ cs, isNameChar d) (h : EndsRun isNameChar rest) (fuel : Nat) (p : Position) :
    readTokens (fuel + 1) ⟨c :: cs ++ rest, p⟩ =
      (readTokens fuel ⟨rest, p.advanceAll (c :: cs)⟩).map
        (⟨wordToken (.ofList (c :: cs)), p⟩ :: ·) := by
  have visible := visible_of_isNameStart hc
  have no_slash : c = '/' → Delimited (cs ++ rest) := by
    rintro rfl
    exact absurd hc (by decide)
  have not_stop : wordToken (.ofList (c :: cs)) ≠ .stop := by
    unfold wordToken
    cases Keyword.ofWord? (.ofList (c :: cs)) <;> exact fun h => nomatch h
  rw [readTokens]
  dsimp only
  rw [List.cons_append, skipGap_visible visible no_slash]
  dsimp only
  rw [← List.cons_append, readToken_nameChars hc hcs h]
  exact if_neg not_stop

theorem tokenize_identifier {name : String} (h : isIdentifier name) :
    ∃ p, tokenize name = .ok [⟨wordToken name, .start⟩, ⟨.stop, p⟩] := by
  obtain ⟨c, cs, hname, hc, hcs⟩ := isIdentifier_iff.1 h
  have word := readTokens_word hc hcs .nil (cs.length + 1) .start
  rw [List.append_nil, ← hname, String.ofList_toList] at word
  have size : name.toList.length = cs.length + 1 := congrArg List.length hname
  refine ⟨Position.start.advanceAll name.toList, ?_⟩
  unfold tokenize Source.start
  rw [size, word]
  rfl

theorem tokenize_called {name : String} (h : isIdentifier name) :
    ∃ p q r, tokenize (name ++ "()") = .ok [⟨wordToken name, .start⟩, ⟨.sign .leftParen, p⟩,
      ⟨.sign .rightParen, q⟩, ⟨.stop, r⟩] := by
  obtain ⟨c, cs, hname, hc, hcs⟩ := isIdentifier_iff.1 h
  have ends : EndsRun isNameChar ['(', ')'] := .cons (by decide)
  have word := readTokens_word hc hcs ends (cs.length + 3) .start
  rw [← hname, String.ofList_toList] at word
  have size : (name ++ "()").toList.length = cs.length + 3 := by
    rw [String.toList_append, hname, List.length_append]
    rfl
  let p := Position.start.advanceAll name.toList
  refine ⟨p, p.advance '(', (p.advance '(').advance ')', ?_⟩
  unfold tokenize Source.start
  rw [size, String.toList_append]
  exact word

/-- No limit is met in a stream of fewer tokens than there is room. -/
theorem ruleOf_derived {s : TokenStream} {e : Expr} (short : s.body.length < nestingLimit)
    (h : Derives .expression (withoutSemicolons s.words) e) : ruleOf s.tokens = .ok (some e) := by
  rcases ruleOf_reaches s h with read | ⟨fault, failed, limit⟩
  · exact read
  · have outcome := ruleOf_outcome s
    rw [failed] at outcome
    exact absurd (outcome limit) (Nat.not_le.2 short)

theorem ruleOf_call (name : String) (o p q r : Position) :
    ruleOf [⟨.name name, o⟩, ⟨.sign .leftParen, p⟩, ⟨.sign .rightParen, q⟩, ⟨.stop, r⟩] =
      .ok (some (.call name [])) := by
  let call : TokenStream :=
    ⟨[⟨.name name, o⟩, ⟨.sign .leftParen, p⟩, ⟨.sign .rightParen, q⟩], r, by simp⟩
  have words : withoutSemicolons call.words =
      .name name :: .sign .leftParen :: ([] ++ [.sign .rightParen]) := rfl
  have derived : Derives .primary (withoutSemicolons call.words) (.call name []) :=
    words ▸ .call name .noItem
  have short : call.body.length < nestingLimit := by
    change 3 < 64
    decide
  refine ruleOf_derived short (.operation ?_)
  exact .tighter (.tighter (.tighter (.tighter (.tighter (.tighter
    (.operand (.selected (.primary derived))))))))

theorem ruleOf_keyword (k : Keyword) (o p q r : Position) : ∃ fault,
    ruleOf [⟨.keyword k, o⟩, ⟨.sign .leftParen, p⟩, ⟨.sign .rightParen, q⟩, ⟨.stop, r⟩] =
      .error fault := by
  cases k <;> exact ⟨_, rfl⟩

/-- Whether a custom function may have this name. -/
def Declarable (name : String) : Prop := isIdentifier name ∧ name ∉ reservedNames

theorem firstRepeated?_eq_none {seen names : List String} :
    firstRepeated? seen names = none ↔ names.Nodup ∧ ∀ n ∈ names, n ∉ seen := by
  induction names generalizing seen with
  | nil => simp [firstRepeated?]
  | cons n names ih =>
    by_cases h : n ∈ seen
    · simp [firstRepeated?, h]
    · simp only [firstRepeated?, List.contains_iff_mem, h, ↓reduceIte, ih, List.nodup_cons,
        List.mem_cons, forall_eq_or_imp, not_or, not_false_eq_true, true_and]
      constructor
      · rintro ⟨once, fresh⟩
        exact ⟨⟨fun hn => (fresh n hn).1 rfl, once⟩, fun m hm => (fresh m hm).2⟩
      · rintro ⟨⟨new, once⟩, fresh⟩
        exact ⟨once, fun m hm => ⟨fun same => new (same ▸ hm), fresh m hm⟩⟩

theorem compileFunction_ok {name : String} {source : FunctionSource} {f : Function} :
    compileFunction name source = .ok f ↔ Declarable name ∧
      ∃ p body, parseParameters source.parameters = .ok p ∧ p.all.Nodup ∧
        parseBody source.body = .ok body ∧ f = ⟨name, p, body⟩ := by
  have distinct (p : Parameters) : p.all.Nodup ↔ firstRepeated? [] p.all = none := by
    simp [firstRepeated?_eq_none]
  simp only [distinct]
  unfold compileFunction Declarable
  cases identifier : isIdentifier name
  · simp
  by_cases reserved : name ∈ reservedNames
  · simp [reserved]
  cases parameters : parseParameters source.parameters with
  | error e => simp [reserved]
  | ok p =>
    cases repeated : firstRepeated? [] p.all with
    | some n => simp [reserved, repeated]
    | none =>
      cases parsed : parseBody source.body with
      | error e => simp [reserved, repeated]
      | ok body => simp [reserved, repeated, eq_comm]

theorem isIdentifier_of_compileFunction {name : String} {source : FunctionSource} {f : Function}
    (h : compileFunction name source = .ok f) : isIdentifier name :=
  (compileFunction_ok.1 h).1.1

/-- A function that has been compiled can be called by its name, except that nothing calls
one whose name is a keyword. -/
theorem compileFunction_callable {name : String} {source : FunctionSource} {f : Function}
    (h : compileFunction name source = .ok f) :
    ((∀ k : Keyword, name ∉ k.words) →
      tokensOf name = .ok [.name name, .stop] ∧
        parseRule (name ++ "()") = .ok (some (.call name []))) ∧
    ∀ k : Keyword, name ∈ k.words →
      tokensOf name = .ok [.keyword k, .stop] ∧
        ∃ fault, parseRule (name ++ "()") = .error fault := by
  have identifier := isIdentifier_of_compileFunction h
  obtain ⟨stop, alone⟩ := tokenize_identifier identifier
  obtain ⟨p, q, r, called⟩ := tokenize_called identifier
  unfold tokensOf
  rw [parseRule_eq_bind, alone, called]
  constructor
  · intro hk
    rw [wordToken_name hk]
    exact ⟨rfl, ruleOf_call name .start p q r⟩
  · intro k hk
    rw [wordToken_keyword hk]
    exact ⟨rfl, ruleOf_keyword k .start p q r⟩

theorem compileFunction_callable_bonus :
    ∃ f, compileFunction "bonus" ⟨"n, ...ids", "return n;"⟩ = .ok f ∧
      tokensOf "bonus" = .ok [.name "bonus", .stop] ∧
        parseRule "bonus()" = .ok (some (.call "bonus" [])) := by
  have compiled : (compileFunction "bonus" ⟨"n, ...ids", "return n;"⟩).isOk = true := by
    decide +kernel
  cases h : compileFunction "bonus" ⟨"n, ...ids", "return n;"⟩ with
  | error e =>
    rw [h] at compiled
    cases compiled
  | ok f => exact ⟨f, rfl, (compileFunction_callable h).1 (by rintro (_ | _) <;> decide)⟩

/-- A function can be declared under the name `if`, which no rule can call. -/
theorem compileFunction_if :
    (∃ f, compileFunction "if" ⟨"", ""⟩ = .ok f) ∧
      tokensOf "if" = .ok [.keyword .if, .stop] ∧
        parseRule "if()" = .error ⟨.expected .expression (.keyword .if), .start⟩ := by
  have keyword : wordToken "if" = .keyword .if := wordToken_keyword (by decide)
  have identifier : isIdentifier "if" := by decide
  obtain ⟨stop, alone⟩ := tokenize_identifier identifier
  obtain ⟨p, q, r, called⟩ := tokenize_called identifier
  have call : parseRule "if()" = tokenize ("if" ++ "()") >>= ruleOf := parseRule_eq_bind "if()"
  unfold tokensOf
  rw [call, alone, called, keyword]
  exact ⟨⟨⟨"if", ⟨[], none⟩, []⟩, rfl⟩, rfl, rfl⟩

end ScoreSheet.Rule
