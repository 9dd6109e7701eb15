import ScoreSheet.Proofs.Rule.Walk.Statements
set_option autoImplicit false

/-! Whatever is read to its end has taken a token at least, has left the stop in front, and has
put both counters back. On the way they only go up as far as the limits allow, so a walk over
any tokens ends: each turn of a loop goes forward, and each nested part takes some room. -/
namespace ScoreSheet.Rule.Walk

/-- The walk has gone forward inside the tokens and counts what it counted at first, and the
counters have come up to the limits at most, unless they started above them. -/
structure Kept (ts : Tokens) (c : Cursor) (w : Walk) : Prop where
  further : c.place < w.now.place
  inside : w.now.place < ts.length
  depth : w.now.depth = c.depth
  links : w.now.links = c.links
  passed : ∀ d ∈ w.passed, d.place < ts.length ∧ d.depth ≤ max nestingLimit c.depth ∧
    d.links ≤ max chainLimit c.links

section
variable {α : Type} (ts : Tokens) (m : Walking α)

def Halts : Prop := ∀ c : Cursor, c.place < ts.length → ∃ r, m ⟨c, []⟩ = some r

/-- From every place inside the tokens, the walk ends, and what it reads to its end leaves
the counters as they were. -/
def Keeps : Prop :=
  ∀ c : Cursor, c.place < ts.length → ∃ r, m ⟨c, []⟩ = some r ∧
    ∀ x w, r = .ok (x, w) → Kept ts c w

end

/-- Every part of a walk over the tokens keeps its counters, and every loop ends, those over
the whole tokens from their start. -/
structure Disciplined (ts : Tokens) : Prop where
  statement : Keeps ts ts.statement
  statementForm : Keeps ts ts.statementForm
  blockBody : ∀ before, Keeps ts (ts.blockBody before)
  branchBody : Keeps ts ts.branchBody
  expression : Keeps ts ts.expression
  conditional : Keeps ts ts.conditional
  operations : ∀ levels, Keeps ts (ts.operations levels)
  operand : Keeps ts ts.operand
  selected : Keeps ts ts.selected
  primary : Keeps ts ts.primary
  items : ∀ close before, Keeps ts (ts.items close before)
  properties : ∀ before, Keeps ts (ts.properties before)
  chain : ∀ level levels left, Halts ts (ts.chain level levels left)
  selectors : ∀ e, Halts ts (ts.selectors e)
  rule : ∃ r, ts.rule start = some r
  statements : ∃ r, ts.statements [] start = some r
  parameters : ∃ r, ts.parameters [] start = some r

section Agreement
variable {α : Type} {ts : Tokens} {m : Walking α}

def Bounds.above (depth links : Nat) : Bounds where
  depth := max nestingLimit depth
  links := max chainLimit links
  nestingLimit_le := Nat.le_max_left _ _
  chainLimit_le := Nat.le_max_left _ _

theorem sound_above {c : Cursor} (h : c.place < ts.length) :
    Sound ts (.above c.depth c.links) ⟨c, []⟩ :=
  ⟨⟨h, Nat.le_max_right _ _, Nat.le_max_right _ _⟩, fun _ h => absurd h List.not_mem_nil⟩

theorem keeps_of_agrees (h : ∀ B w, Sound ts B w → ∃ r, Agrees ts B (Past w) (m w) r) :
    Keeps ts m := by
  intro c hc
  obtain ⟨r, agrees⟩ := h _ ⟨c, []⟩ (sound_above hc)
  cases r with
  | error e =>
    refine ⟨_, agrees.1, ?_⟩
    rintro _ _ ⟨⟩
  | ok x =>
    obtain ⟨w, run, -, sound, past⟩ := agrees
    refine ⟨_, run, ?_⟩
    rintro _ _ ⟨⟩
    exact ⟨past.place, sound.now.place, past.depth, past.links, fun d hd =>
      have inside := sound.passed d hd
      ⟨inside.place, inside.depth, inside.links⟩⟩

theorem ReadsAt.keeps {parse : Nat → Nat → Parse α}
    (h : ∀ B room links, ReadsAt ts B room links m (parse room links)) : Keeps ts m :=
  keeps_of_agrees fun B w sound => ⟨_, h B _ _ w sound rfl rfl⟩

theorem halts_of_agrees {Q : Walk → Walk → Prop}
    (h : ∀ B w, Sound ts B w → ∃ r, Agrees ts B (Q w) (m w) r) : Halts ts m := by
  intro c hc
  obtain ⟨r, agrees⟩ := h _ ⟨c, []⟩ (sound_above hc)
  cases r with
  | error e => exact ⟨_, agrees.1⟩
  | ok x => exact ⟨_, agrees.choose_spec.1⟩

theorem Concludes.ends {run : Option (Except SyntaxError (α × Walk))}
    {r : Except SyntaxError α} (h : Concludes ts run r) : ∃ r, run = some r := by
  cases r with
  | error e => exact ⟨_, h.1⟩
  | ok x => exact ⟨_, h.choose_spec⟩

end Agreement

theorem disciplined {ts : Tokens} (hs : Ended ts) : Disciplined ts where
  statement := ReadsAt.keeps fun _ room links => statement_reads hs links room
  statementForm := ReadsAt.keeps fun _ room links =>
    statementForm_reads hs (statement_reads hs links room) ((grammar_reads hs room).1 links)
  blockBody before := keeps_of_agrees fun _ _ sound =>
    ⟨_, blockBody_agrees hs (statement_reads hs _ _) _ before sound rfl rfl (Nat.le_refl _)⟩
  branchBody := ReadsAt.keeps fun _ room links =>
    branchBody_reads hs (statement_reads hs links room)
  expression := ReadsAt.keeps fun _ room => (grammar_reads hs room).1
  conditional := ReadsAt.keeps fun _ room =>
    conditional_reads hs (grammar_reads hs room).2 (grammar_reads hs room).1
  operations levels := ReadsAt.keeps fun _ room =>
    operations_reads hs (grammar_reads hs room).2 levels
  operand := ReadsAt.keeps fun _ room => (grammar_reads hs room).2
  selected := ReadsAt.keeps fun _ room => selected_reads hs (grammar_reads hs room).1
  primary := ReadsAt.keeps fun _ room links => primary_reads hs ((grammar_reads hs room).1 links)
  items close before := keeps_of_agrees fun _ _ sound =>
    ⟨_, items_agrees hs ((grammar_reads hs _).1 _) close before sound rfl rfl (Nat.le_refl _)⟩
  properties before := keeps_of_agrees fun _ _ sound =>
    ⟨_, properties_agrees hs ((grammar_reads hs _).1 _) before sound rfl rfl (Nat.le_refl _)⟩
  chain _ levels left := halts_of_agrees fun _ _ sound =>
    ⟨_, chain_agrees hs (operations_reads hs (grammar_reads hs _).2 levels) _ left sound rfl rfl⟩
  selectors e := halts_of_agrees fun _ _ sound =>
    ⟨_, selectors_agrees hs (grammar_reads hs _).1 _ e sound rfl rfl⟩
  rule := (rule_concludes hs).ends
  statements := (body_concludes hs).ends
  parameters := (parameterList_concludes hs).ends

/-- Over all tokens with one stop at their end, which those of a text are, every part of a
walk keeps its counters and every loop ends; and walks find what the parser finds. -/
theorem parsing_keeps_counters :
    (∀ s : TokenStream, Disciplined s.tokens) ∧
      (∀ text ts, tokenize text = .ok ts → ∃ s : TokenStream, ts = s.tokens) ∧
      ∀ text, parse Tokens.rule text = some (parseRule text) ∧
        parse (Tokens.statements · []) text = some (parseBody text) ∧
        parse (Tokens.parameters · []) text = some (parseParameters text) :=
  ⟨fun s => disciplined s.ended, fun _ _ h => (tokenize_ended h).exists_stream,
    fun text => ⟨parse_rule text, parse_body text, parse_parameters text⟩⟩

end ScoreSheet.Rule.Walk
