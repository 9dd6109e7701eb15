import ScoreSheet.Proofs.Rule.Recognition
set_option autoImplicit false

/-! A rule is an expression of the grammar between semicolons: what is read has a derivation,
and what has a derivation is read as its tree unless an allowance is used up, which takes
at least as many tokens as there is room. -/
namespace ScoreSheet.Rule

/-- Words of the category are read as the tree, however large the allowances are. -/
def Recognized : (c : Category) → List Token → c.Tree → Prop
  | .expression, w, e => ∀ room links,
    Accepts ((grammar room).expression links) EndsExpression w e
  | .operation [], w, e => ∀ room links, Accepts ((grammar room).operand links) (Ends []) w e
  | .operation (level :: levels), w, e => (level :: levels).Nodup → ∀ room,
    Resumes (grammar room).operand level levels w e
  | .prefixed, w, e => ∀ room links, Accepts ((grammar room).operand links) (Ends []) w e
  | .selected, w, e => ∀ room, Selects (grammar room).operand (grammar room).expression w e
  | .primary, w, e => ∀ room links,
    Accepts (primary ((grammar room).expression links)) Uncalled w e
  | .item, w, i => ∀ room links,
    Accepts (readItem ((grammar room).expression links)) EndsExpression w i
  | .items, w, l => ∀ room links close, (Token.sign close).ends = true → close ≠ .question →
    close ≠ .comma → Encloses (items ((grammar room).expression links) close) close w l
  | .property, w, f => ∀ room links,
    Accepts (readProperty ((grammar room).expression links)) EndsProperty w f
  | .properties, w, l => ∀ room links,
    Encloses (properties ((grammar room).expression links)) .rightBrace w (lastOfEachName l)

theorem Recognized.operations {levels : List Level} {w : List Token} {e : Expr}
    (h : Recognized (.operation levels) w e) (hl : levels.Nodup) (room links : Nat) :
    Accepts (operations (grammar room).operand levels links) (Ends levels) w e := by
  cases levels with
  | nil => exact h room links
  | cons level levels => exact (h hl room).accepts links

theorem Derives.recognized {c : Category} {w : List Token} {x : c.Tree} (h : Derives c w x) :
    Recognized c w x := by
  induction h with
  | operation _ ih =>
    intro room links
    cases room with
    | zero => exact outOfRoom_accepts _ _ _
    | succ room => exact conditional_condition (ih.operations (by decide) room links)
  | conditional _ _ _ ihc ihe ihf =>
    intro room links
    cases room with
    | zero => exact outOfRoom_accepts _ _ _
    | succ room =>
      exact conditional_branches (ihc.operations (by decide) room links) (ihe room links)
        (ihf room links)
  | join ho _ _ ihe ihf =>
    intro hl room
    obtain ⟨hn, hl'⟩ := List.nodup_cons.1 hl
    exact (ihe hl room).join ho hn (ihf.operations hl' room)
  | tighter _ ih =>
    intro hl room
    exact .tighter (ih.operations (List.nodup_cons.1 hl).2 room)
  | operand _ ih => exact ih
  | prefixed ho _ ih =>
    intro room links
    cases room with
    | zero =>
      change Accepts (Rule.operand (fun _ => outOfRoom) (fun _ => outOfRoom) links) _ _ _
      exact operand_prefixed ho (outOfRoom_accepts _ _ _)
    | succ room => exact operand_prefixed ho (ih room links)
  | selected _ ih => exact fun room links => (ih room).accepts links
  | member n _ ih => exact fun room => (ih room).member n
  | index _ _ ihe ihf => exact fun room => (ihe room).index (ihf room)
  | primary h ih =>
    intro room
    obtain ⟨deeper, hd⟩ := grammar_operand_expression room
    rw [hd]
    exact .primary h.head (ih room)
  | literal hl => exact fun _ _ => primary_literal hl
  | name n => exact fun _ _ => primary_accepts_name n
  | paren _ ih => exact fun room links => primary_accepts_paren (ih room links)
  | call n _ ih =>
    exact fun room links => primary_call n (ih room links _ rfl (by decide) (by decide))
  | array _ ih =>
    exact fun room links => primary_array (ih room links _ rfl (by decide) (by decide))
  | object _ ih => exact fun room links => primary_object (ih room links)
  | one h ih => exact fun room links => readItem_one h.head (ih room links)
  | spread _ ih => exact fun room links => readItem_spread (ih room links)
  | noItem =>
    intro room links close _ _ _
    rw [funext (items_eq_separated _ _)]
    exact separated_none
  | lastItem h ih =>
    intro room links close hends hq hc
    rw [funext (items_eq_separated _ _)]
    exact separated_last (ih room links) (fun ts rest ht => h.head.not_close hends ht rest)
      (fun c rest hs => .of_sign hs hends hq rest) hc
  | moreItems h _ ih ihr =>
    intro room links close hends hq hc
    have later := ihr room links close hends hq hc
    rw [funext (items_eq_separated _ _)] at later ⊢
    exact separated_more (ih room links) (fun ts rest ht => h.head.not_close hends ht rest)
      (fun c rest hs => .of_sign hs rfl (by decide) rest) later
  | keyed hk _ ih => exact fun room links => readProperty_keyed hk (ih room links)
  | shorthand n => exact fun _ _ => readProperty_shorthand n
  | noProperty =>
    intro room links
    rw [funext (properties_eq_separated _)]
    exact separated_none
  | lastProperty h ih =>
    intro room links
    rw [funext (properties_eq_separated _)]
    exact separated_last (ih room links) (fun ts rest ht => h.head.not_brace ht rest)
      (fun c rest hs => .of_sign hs rfl (by decide) (by decide) rest) (by decide)
  | moreProperties h _ ih ihr =>
    intro room links
    have later := ihr room links
    rw [funext (properties_eq_separated _)] at later ⊢
    rw [← withProperty_lastOfEachName]
    exact separated_more (ih room links) (fun ts rest ht => h.head.not_brace ht rest)
      (fun c rest hs => .of_sign hs rfl (by decide) (by decide) rest) later

/-- Tokens as a text has them: the last one is the stop, and no other one is. -/
structure TokenStream where
  body : Tokens
  stop : Position
  no_stop : ∀ t ∈ body, t.token ≠ .stop

def TokenStream.tokens (s : TokenStream) : Tokens := s.body ++ [⟨.stop, s.stop⟩]

def TokenStream.words (s : TokenStream) : List Token := s.body.map Located.token

def withoutSemicolons (w : List Token) : List Token :=
  ((w.dropWhile (· = .sign .semicolon)).reverse.dropWhile (· = .sign .semicolon)).reverse

def ruleOf (ts : Tokens) : Except SyntaxError (Option Expr) :=
  if peek (skipSemicolons ts) = .stop then .ok none
  else do
    let (e, ts) ← expression nestingLimit (skipSemicolons ts)
    expectStop (some e) (skipSemicolons ts)

theorem TokenStream.ended (s : TokenStream) : Ended s.tokens := by
  obtain ⟨body, stop, hb⟩ := s
  unfold tokens
  dsimp only
  induction body with
  | nil => exact .stop rfl
  | cons t body ih =>
    exact .more (hb t List.mem_cons_self) (ih fun u hu => hb u (List.mem_cons_of_mem _ hu))

theorem Ended.exists_stream {ts : Tokens} (h : Ended ts) : ∃ s : TokenStream, ts = s.tokens := by
  induction h with
  | @stop t ht =>
    obtain ⟨token, p⟩ := t
    obtain rfl : token = .stop := ht
    exact ⟨⟨[], p, fun u hu => absurd hu List.not_mem_nil⟩, rfl⟩
  | @more t ts ht _ ih =>
    obtain ⟨⟨body, stop, hb⟩, rfl⟩ := ih
    exact ⟨⟨t :: body, stop, List.forall_mem_cons.2 ⟨ht, hb⟩⟩, rfl⟩

theorem readTokens_ended {fuel : Nat} {s : Source} {ts : Tokens}
    (h : readTokens fuel s = .ok ts) : Ended ts := by
  induction fuel generalizing s ts with
  | zero =>
    cases h
    exact .stop rfl
  | succ fuel ih =>
    rw [readTokens] at h
    split at h
    · cases h
    · split at h
      · cases h
      · split at h
        · cases h
          exact .stop rfl
        · obtain ⟨ts, hr, rfl⟩ := map_ok h
          exact .more ‹_› (ih hr)

theorem tokenize_ended {text : String} {ts : Tokens} (h : tokenize text = .ok ts) : Ended ts :=
  readTokens_ended h

theorem Ended.eq_singleton {ts : Tokens} (h : Ended ts) (hp : peek ts = .stop) :
    ∃ t, ts = [t] := by
  cases h with
  | stop => exact ⟨_, rfl⟩
  | more ht => exact absurd hp ht

theorem skipSemicolons_append {a us : Tokens} (ha : ∀ t ∈ a, t.token = .sign .semicolon)
    (hu : us ≠ []) (hp : peek us ≠ .sign .semicolon) : skipSemicolons (a ++ us) = us := by
  induction a with
  | nil =>
    obtain ⟨t, us, rfl⟩ := List.exists_cons_of_ne_nil hu
    cases us with
    | nil => rfl
    | cons u us => exact if_neg hp
  | cons t a ih =>
    obtain ⟨ht, ha⟩ := List.forall_mem_cons.1 ha
    have read := ih ha
    obtain ⟨u, vs, hv⟩ :=
      List.exists_cons_of_ne_nil (List.append_ne_nil_of_right_ne_nil a hu)
    rw [List.cons_append, hv, skipSemicolons, if_pos ht, ← hv, read]

theorem exists_semicolons {ts : Tokens} (h : Ended ts) : ∃ a,
    (∀ t ∈ a, t.token = .sign .semicolon) ∧ ts = a ++ skipSemicolons ts ∧
      Ended (skipSemicolons ts) := by
  induction h with
  | @stop t ht => exact ⟨[], fun u hu => absurd hu List.not_mem_nil, rfl, .stop ht⟩
  | @more t ts ht hs ih =>
    obtain ⟨a, ha, parts, ended⟩ := ih
    obtain ⟨u, us, rfl⟩ := List.exists_cons_of_ne_nil hs.ne_nil
    rw [skipSemicolons]
    split
    · exact ⟨t :: a, List.forall_mem_cons.2 ⟨‹_›, ha⟩, congrArg (t :: ·) parts, ended⟩
    · exact ⟨[], fun u hu => absurd hu List.not_mem_nil, rfl, .more ht hs⟩

theorem dropWhile_semicolon {a w : List Token} (ha : ∀ t ∈ a, t = .sign .semicolon)
    (hw : ∀ t v, w = t :: v → t ≠ .sign .semicolon) :
    (a ++ w).dropWhile (· = .sign .semicolon) = w := by
  rw [List.dropWhile_append_of_pos (by simpa using ha)]
  cases w with
  | nil => rfl
  | cons t v => exact List.dropWhile_cons_of_neg (by simpa using hw t v rfl)

theorem withoutSemicolons_append {a w b : List Token} (ha : ∀ t ∈ a, t = .sign .semicolon)
    (hb : ∀ t ∈ b, t = .sign .semicolon) (hw : .sign .semicolon ∉ w) (hne : w ≠ []) :
    withoutSemicolons (a ++ (w ++ b)) = w := by
  have head {v : List Token} (hv : .sign .semicolon ∉ v) (hne : v ≠ []) (c : List Token) :
      ∀ t u, v ++ c = t :: u → t ≠ .sign .semicolon := by
    rintro t u h rfl
    obtain ⟨t, v, rfl⟩ := List.exists_cons_of_ne_nil hne
    cases h
    exact hv List.mem_cons_self
  have reversed := head (v := w.reverse) (by simpa using hw) (by simpa using hne) []
  rw [List.append_nil] at reversed
  unfold withoutSemicolons
  rw [dropWhile_semicolon ha (head hw hne b), List.reverse_append,
    dropWhile_semicolon (by simpa using hb) reversed, List.reverse_reverse]

theorem exists_withoutSemicolons (w : List Token) : ∃ a b,
    (∀ t ∈ a, t = .sign .semicolon) ∧ (∀ t ∈ b, t = .sign .semicolon) ∧
      w = a ++ (withoutSemicolons w ++ b) := by
  have skipped (v : List Token) : ∃ a, (∀ t ∈ a, t = .sign .semicolon) ∧
      a ++ v.dropWhile (· = .sign .semicolon) = v := by
    have all := List.all_takeWhile (l := v) (p := (· = .sign .semicolon))
    rw [List.all_eq_true] at all
    exact ⟨_, by simpa using all, List.takeWhile_append_dropWhile⟩
  obtain ⟨a, ha, front⟩ := skipped w
  obtain ⟨b, hb, back⟩ := skipped (w.dropWhile (· = .sign .semicolon)).reverse
  have last : w.dropWhile (· = .sign .semicolon) = withoutSemicolons w ++ b.reverse := by
    rw [withoutSemicolons, ← List.reverse_append, back, List.reverse_reverse]
  exact ⟨a, b.reverse, ha, fun t ht => hb t (List.mem_reverse.1 ht), by rw [← last, front]⟩

theorem TokenStream.words_eq (s : TokenStream) {before read behind : Tokens} {t : Located}
    (h : s.tokens = before ++ (read ++ (behind ++ [t]))) : s.words =
      before.map Located.token ++ (read.map Located.token ++ behind.map Located.token) := by
  rw [← List.append_assoc, ← List.append_assoc] at h
  have body : s.body = before ++ read ++ behind := (List.append_inj' h rfl).1
  rw [words, body, List.map_append, List.map_append, List.append_assoc]

theorem semicolon_words {a : Tokens} (ha : ∀ t ∈ a, t.token = .sign .semicolon) :
    ∀ t ∈ a.map Located.token, t = .sign .semicolon := by
  simpa using ha

theorem ruleOf_outcome (s : TokenStream) :
    Outcome (fun r => ∀ e, r = some e → Derives .expression (withoutSemicolons s.words) e)
      (nestingLimit ≤ s.body.length) (ruleOf s.tokens) := by
  obtain ⟨a, ha, front, ended⟩ := exists_semicolons s.ended
  unfold ruleOf
  split
  · exact fun e he => nomatch he
  · refine ((grammar_reading nestingLimit chainLimit).1 _ ended).bind ?_ ?_
    · intro h
      have least : min nestingLimit (chainLimit + 1) = nestingLimit := rfl
      have skipped := congrArg List.length front
      rw [TokenStream.tokens, List.length_append, List.length_append,
        List.length_singleton] at skipped
      change _ < (skipSemicolons (s.body ++ [⟨.stop, s.stop⟩])).length at h
      omega
    · rintro ⟨e, rest⟩ ⟨w, hw, ⟨⟨read, rfl, hread⟩, hrest⟩⟩
      have rest_ended : Ended rest := hrest
      obtain ⟨b, hb, back, last_ended⟩ := exists_semicolons rest_ended
      dsimp only at hread ⊢
      unfold expectStop
      split
      · rintro _ ⟨⟩
        obtain ⟨t, last⟩ := last_ended.eq_singleton ‹_›
        rw [last] at back
        rw [hread, back] at front
        have nonempty : read.map Located.token ≠ [] := by
          obtain ⟨t, v, hv, -⟩ := hw.head
          rw [hv]
          exact List.cons_ne_nil _ _
        rwa [s.words_eq front, withoutSemicolons_append (semicolon_words ha)
          (semicolon_words hb) hw.semicolon_notMem nonempty]
      · exact Outcome.unexpected _ _

theorem ruleOf_reaches (s : TokenStream) {e : Expr}
    (h : Derives .expression (withoutSemicolons s.words) e) :
    Reaches (ruleOf s.tokens) (.ok (some e)) := by
  obtain ⟨a, b, ha, hb, parts⟩ := exists_withoutSemicolons s.words
  obtain ⟨before, us, hbody, rfl, hus⟩ := List.map_eq_append_iff.1 parts
  obtain ⟨read, behind, rfl, hread, rfl⟩ := List.map_eq_append_iff.1 hus
  obtain ⟨t, v, hv, ht⟩ := h.head
  obtain ⟨u, us, rfl, rfl, -⟩ := List.map_eq_cons_iff.1 (hread.trans hv)
  have starts {token : Token} (hn : token.starts = false) : u.token ≠ token := by
    rintro rfl
    exact absurd ht (by rw [hn]; decide)
  have front : skipSemicolons s.tokens = u :: us ++ (behind ++ [⟨.stop, s.stop⟩]) := by
    have whole : s.tokens = before ++ (u :: us ++ (behind ++ [⟨.stop, s.stop⟩])) := by
      rw [TokenStream.tokens, hbody, List.append_assoc, List.append_assoc]
    rw [whole]
    exact skipSemicolons_append (by simpa using ha) (List.cons_ne_nil _ _) (starts rfl)
  have back : skipSemicolons (behind ++ [⟨.stop, s.stop⟩]) = [⟨.stop, s.stop⟩] :=
    skipSemicolons_append (by simpa using hb) (List.cons_ne_nil _ _) (fun h => nomatch h)
  have ends : EndsExpression (behind ++ [⟨.stop, s.stop⟩]) := by
    cases behind with
    | nil => exact .of_token rfl (by simp) _
    | cons c behind =>
      have semicolon : c.token = .sign .semicolon := hb _ List.mem_cons_self
      exact .of_sign semicolon rfl (by decide) _
  have not_stop : peek (u :: us ++ (behind ++ [⟨.stop, s.stop⟩])) ≠ .stop := starts rfl
  unfold ruleOf
  rw [front, if_neg not_stop]
  refine ((h.recognized nestingLimit chainLimit _ _ hread ends).bind _).trans ?_
  dsimp only [bind, Except.bind]
  rw [back]
  exact .refl _

theorem parseRule_eq_bind (text : String) : parseRule text = tokenize text >>= ruleOf :=
  rfl

/-- A text is read by way of its tokens, and tokens between semicolons are accepted as an
expression exactly when the grammar derives it, up to two limits that short texts keep. -/
theorem parseRule_grammar :
    (∀ text, (∃ e, tokenize text = .error e ∧ parseRule text = .error e) ∨
      ∃ s : TokenStream, tokenize text = .ok s.tokens ∧ parseRule text = ruleOf s.tokens) ∧
    ∀ s : TokenStream,
      (∀ e, ruleOf s.tokens = .ok (some e) →
        Derives .expression (withoutSemicolons s.words) e) ∧
      (∀ e, Derives .expression (withoutSemicolons s.words) e →
        ruleOf s.tokens = .ok (some e) ∨ ∃ fault, ruleOf s.tokens = .error fault ∧
          (fault.fault = .nestedTooDeep ∨ fault.fault = .chainTooLong)) ∧
      (s.body.length < 64 → ∀ fault, ruleOf s.tokens = .error fault →
        fault.fault ≠ .nestedTooDeep ∧ fault.fault ≠ .chainTooLong) := by
  refine ⟨fun text => ?_, fun s => ⟨fun e h => ?_, fun e h => ?_, fun hs fault h => ?_⟩⟩
  · rw [parseRule_eq_bind]
    cases hts : tokenize text with
    | error e => exact .inl ⟨e, rfl, rfl⟩
    | ok ts =>
      obtain ⟨s, rfl⟩ := (tokenize_ended hts).exists_stream
      exact .inr ⟨s, rfl, rfl⟩
  · have outcome := ruleOf_outcome s
    rw [h] at outcome
    exact outcome e rfl
  · refine (ruleOf_reaches s h).imp_right ?_
    rintro ⟨fault, hf, hl⟩
    refine ⟨fault, hf, ?_⟩
    cases hf' : fault.fault <;> rw [hf'] at hl <;> cases hl
    · exact .inl rfl
    · exact .inr rfl
  · have outcome := ruleOf_outcome s
    rw [h] at outcome
    have short : ¬ fault.fault.Limit := fun hl => Nat.not_le.2 hs (outcome hl)
    exact ⟨fun hf => short (hf ▸ .room), fun hf => short (hf ▸ .links)⟩

end ScoreSheet.Rule
