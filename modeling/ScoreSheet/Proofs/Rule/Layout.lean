import ScoreSheet.Proofs.Rule.LexemeReading
set_option autoImplicit false

namespace ScoreSheet.Rule
open Text

theorem Position.behind_concat (cs : List Char) (c : Char) :
    behind (cs ++ [c]) = (behind cs).advance c := by
  unfold behind advance
  rw [List.count_append, List.reverse_append, List.reverse_singleton, List.singleton_append]
  by_cases h : c = '\n'
  · subst h
    simp [Nat.add_assoc]
  · simp [h, Nat.add_assoc]

theorem Position.behind_append (cs ds : List Char) :
    behind (cs ++ ds) = (behind cs).advanceAll ds := by
  induction ds generalizing cs with
  | nil =>
    rw [List.append_nil]
    rfl
  | cons d ds ih => rw [List.append_cons, ih, behind_concat]; rfl

theorem skipGap_blank {c : Char} (h : isBlank c) (p : Position) (cs : List Char) :
    skipGap .blank p (c :: cs) = skipGap .blank (p.advance c) cs := by
  have no_slash : c ≠ '/' := by
    rintro rfl
    exact absurd h (by decide)
  rw [skipGap.eq_def]
  split <;> simp_all

theorem skipGap_visible {c : Char} {cs : List Char} (h : Visible c)
    (hs : c = '/' → Delimited cs) (p : Position) :
    skipGap .blank p (c :: cs) = .ok ⟨c :: cs, p⟩ := by
  have no_comment {d : Char} (hd : Visible d) : c = '/' → cs.head? ≠ some d :=
    fun hc => (hs hc).head_ne hd
  have no_line := no_comment (d := '/') ⟨by decide, by decide⟩
  have no_bracket := no_comment (d := '*') ⟨by decide, by decide⟩
  have no_blank := h.not_blank
  rw [skipGap.eq_def]
  split <;> simp_all

theorem skipGap_line {text : List Char} (h : '\n' ∉ text) (p : Position) (cs : List Char) :
    skipGap .line p (text ++ '\n' :: cs) = skipGap .blank (p.advanceAll (text ++ ['\n'])) cs := by
  induction text generalizing p with
  | nil => rfl
  | cons c text ih =>
    obtain ⟨hc, ht⟩ := not_or.1 (mt List.mem_cons.2 h)
    rw [List.cons_append, skipGap, if_neg (Ne.symm hc), ih ht]
    rfl

theorem skipGap_bracketed {text : List Char} (h : ¬ ['*', '/'] <:+: text)
    (opened p : Position) (cs : List Char) :
    skipGap (.bracketed opened) p (text ++ '*' :: '/' :: cs)
      = skipGap .blank (p.advanceAll (text ++ ['*', '/'])) cs := by
  induction text generalizing p with
  | nil => rfl
  | cons c text ih =>
    have open_text : ¬ ['*', '/'] <:+: text := fun hi => h (hi.trans (List.suffix_cons c text).isInfix)
    -- A star at the head is not followed by a slash, which would close the comment.
    have no_close : c = '*' → (text ++ '*' :: '/' :: cs).head? ≠ some '/' := by
      rintro rfl hs
      cases text with
      | nil => exact absurd hs (by simp)
      | cons d text =>
        obtain rfl : d = '/' := Option.some.inj hs
        exact h ⟨[], text, rfl⟩
    refine Eq.trans ?_ (ih open_text (p.advance c))
    rw [List.cons_append, skipGap.eq_def]
    split <;> grind

theorem skipGap_piece (g : GapPiece) (p : Position) (cs : List Char) :
    skipGap .blank p (g.spelling ++ cs) = skipGap .blank (p.advanceAll g.spelling) cs := by
  cases g with
  | blank c h => exact skipGap_blank h p cs
  | line text h =>
    rw [GapPiece.spelling, List.cons_append, List.cons_append, List.append_assoc,
      List.singleton_append, skipGap, skipGap_line h]
    rfl
  | bracketed text h =>
    rw [GapPiece.spelling, List.cons_append, List.cons_append, List.append_assoc]
    simp only [List.cons_append, List.nil_append]
    rw [skipGap, skipGap_bracketed h]
    rfl

theorem skipGap_pieces (gs : List GapPiece) (p : Position) (cs : List Char) :
    skipGap .blank p (gs.flatMap GapPiece.spelling ++ cs)
      = skipGap .blank (p.advanceAll (gs.flatMap GapPiece.spelling)) cs := by
  induction gs generalizing p with
  | nil => rfl
  | cons g gs ih =>
    rw [List.flatMap_cons, List.append_assoc, skipGap_piece, ih, Position.advanceAll_append]

theorem skipGap_separator (s : Separator) (p : Position) (cs : List Char) :
    skipGap .blank p (s.spelling ++ cs) = skipGap .blank (p.advanceAll s.spelling) cs := by
  rw [Separator.spelling, List.cons_append, skipGap_blank s.isBlank_first, skipGap_pieces]
  rfl

theorem skipGap_lexeme (l : Lexeme) {rest : List Char} (h : Delimited rest) (p : Position) :
    skipGap .blank p (l.spelling ++ rest) = .ok ⟨l.spelling ++ rest, p⟩ := by
  obtain ⟨c, cs, hc, hv, hs⟩ := l.spelling_head
  rw [hc, List.cons_append]
  refine skipGap_visible hv (fun hslash => ?_) p
  rw [hs hslash]
  exact h

theorem delimited_furtherText (further : List (Separator × Lexeme)) :
    Delimited (Layout.furtherText further) := by
  cases further with
  | nil => exact fun c hc => nomatch hc
  | cons x further =>
    rintro c ⟨⟩
    exact x.1.isBlank_first

theorem readTokens_lexeme {fuel : Nat} {l : Lexeme} {p q : Position} {gap rest : List Char}
    (hg : skipGap .blank p (gap ++ (l.spelling ++ rest)) = skipGap .blank q (l.spelling ++ rest))
    (h : Delimited rest) : readTokens (fuel + 1) ⟨gap ++ (l.spelling ++ rest), p⟩ =
      (readTokens fuel ⟨rest, q.advanceAll l.spelling⟩).map (⟨l.token, q⟩ :: ·) := by
  rw [readTokens]
  dsimp only
  rw [hg, skipGap_lexeme l h]
  dsimp only
  rw [readToken_lexeme l h]
  dsimp only
  rw [if_neg l.token_ne_stop]

theorem readTokens_further {fuel : Nat} {before : List Char}
    (further : List (Separator × Lexeme)) (hf : further.length ≤ fuel) :
    readTokens fuel ⟨Layout.furtherText further, .behind before⟩
      = .ok (Layout.furtherTokens before further) := by
  induction further generalizing fuel before with
  | nil => cases fuel <;> rfl
  | cons x further ih =>
    obtain ⟨s, l⟩ := x
    obtain ⟨fuel, rfl⟩ := Nat.exists_eq_add_of_le' (Nat.le_trans (Nat.le_add_left 1 _) hf)
    change readTokens (fuel + 1) ⟨s.spelling ++ l.spelling ++ Layout.furtherText further, _⟩ = _
    rw [List.append_assoc, readTokens_lexeme (skipGap_separator s _ _)
      (delimited_furtherText further), ← Position.behind_append, ← Position.behind_append,
      ih (Nat.le_of_succ_le_succ hf)]
    rfl

theorem length_le_furtherText (further : List (Separator × Lexeme)) :
    further.length ≤ (Layout.furtherText further).length := by
  induction further with
  | nil => exact Nat.zero_le _
  | cons x further ih =>
    change further.length + 1 ≤ (x.1.spelling ++ x.2.spelling ++ Layout.furtherText further).length
    rw [List.length_append, List.length_append, Separator.spelling, List.length_cons]
    omega

theorem tokenize_layout (l : Layout) : tokenize (.ofList l.text) = .ok l.tokens := by
  unfold tokenize Source.start
  rw [String.toList_ofList]
  cases l with
  | empty => rfl
  | lexemes first further =>
    have enough : further.length ≤ (Layout.lexemes first further).text.length := by
      have tail := length_le_furtherText further
      rw [Layout.text, List.length_append]
      omega
    have read : readTokens ((Layout.lexemes first further).text.length + 1)
        ⟨[] ++ (first.spelling ++ Layout.furtherText further), .start⟩ = _ :=
      readTokens_lexeme rfl (delimited_furtherText further)
    rw [List.nil_append] at read
    refine read.trans ?_
    have behind_first : Position.start.advanceAll first.spelling = .behind first.spelling := by
      rw [← List.nil_append first.spelling, Position.behind_append]
      rfl
    rw [behind_first, readTokens_further further enough]
    rfl

end ScoreSheet.Rule
