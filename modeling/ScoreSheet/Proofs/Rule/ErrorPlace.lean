import ScoreSheet.Proofs.Rule.Layout
import ScoreSheet.Proofs.Rule.Walk.Statements
set_option autoImplicit false

/-! The lexer knows at each character how many lines and columns are behind it, so the place of
a token or of an error is one of the text. The parser complains about tokens only. -/
namespace ScoreSheet.Rule

def StartsAt (text : List Char) (p : Position) (rest : List Char) : Prop :=
  ∃ before, text = before ++ rest ∧ p = .behind before

/-- The place of a character of the text or the one behind the last. -/
def PlaceOf (text : List Char) (p : Position) : Prop := ∃ rest, StartsAt text p rest

/-- The result has the property, or the error stands at a place of the text. -/
def Placed {α : Type} (text : List Char) (P : α → Prop) : Except SyntaxError α → Prop
  | .ok x => P x
  | .error e => PlaceOf text e.position

variable {text : List Char} {p : Position}

theorem StartsAt.placeOf {rest : List Char} (h : StartsAt text p rest) : PlaceOf text p :=
  ⟨rest, h⟩

theorem StartsAt.advanceAll (read : List Char) {rest : List Char}
    (h : StartsAt text p (read ++ rest)) : StartsAt text (p.advanceAll read) rest := by
  obtain ⟨before, rfl, rfl⟩ := h
  exact ⟨before ++ read, (List.append_assoc before read rest).symm,
    (Position.behind_append before read).symm⟩

theorem StartsAt.advance {c : Char} {rest : List Char} (h : StartsAt text p (c :: rest)) :
    StartsAt text (p.advance c) rest :=
  h.advanceAll [c]

theorem Placed.map {α β : Type} {P : α → Prop} {Q : β → Prop} {f : α → β}
    {r : Except SyntaxError α} (h : Placed text P r) (hf : ∀ x, P x → Q (f x)) :
    Placed text Q (r.map f) := by
  cases r with
  | error e => exact h
  | ok x => exact hf x h

def Gap.OpenedIn (text : List Char) : Gap → Prop
  | .bracketed opened => PlaceOf text opened
  | _ => True

theorem skipGap_placed (gap : Gap) (p : Position) (cs : List Char) (hg : gap.OpenedIn text)
    (h : StartsAt text p cs) :
    Placed text (fun s => StartsAt text s.position s.rest) (skipGap gap p cs) := by
  fun_induction skipGap gap p cs with
  | case1 => exact h
  | case2 p cs ih => exact ih trivial h.advance.advance
  | case3 p cs ih => exact ih h.placeOf h.advance.advance
  | case4 p c cs _ _ _ ih => exact ih trivial h.advance
  | case5 => exact h
  | case6 => exact h
  | case7 p c cs ih =>
    refine ih ?_ h.advance
    split <;> trivial
  | case8 => exact hg
  | case9 opened p cs ih => exact ih trivial h.advance.advance
  | case10 opened p c cs _ ih => exact ih hg h.advance

theorem withFirst_ok {c : Char} {r : Except (List Char) (List Char × List Char)}
    {x : List Char × List Char} (h : withFirst c r = .ok x) :
    ∃ read, r = .ok (read, x.2) ∧ x.1 = c :: read := by
  cases r with
  | error e => cases h
  | ok y =>
    cases h
    exact ⟨y.1, rfl, rfl⟩

theorem splitNumeral_parts {pointSeen : Bool} {cs read rest : List Char}
    (h : splitNumeral pointSeen cs = .ok (read, rest)) : cs = read ++ rest := by
  fun_induction splitNumeral pointSeen cs generalizing read rest with
  | case1 =>
    cases h
    rfl
  | case2 pointSeen c cs _ ih =>
    obtain ⟨read, hr, rfl⟩ := withFirst_ok h
    exact congrArg (c :: ·) (ih hr)
  | case3 =>
    cases h
    rfl
  | case4 pointSeen c cs _ _ _ ih =>
    obtain ⟨read, hr, rfl⟩ := withFirst_ok h
    exact congrArg (c :: ·) (ih hr)
  | case5 => cases h
  | case6 pointSeen c _ _ _ d ds _ _ ih =>
    obtain ⟨read, hr, rfl⟩ := withFirst_ok h
    obtain ⟨read, hr, rfl⟩ := withFirst_ok hr
    exact congrArg (c :: d :: ·) (ih hr)
  | case7 => cases h
  | case8 pointSeen c _ _ _ d ds _ _ ih =>
    obtain ⟨read, hr, rfl⟩ := withFirst_ok h
    exact congrArg (c :: ·) (ih hr)
  | case9 => cases h
  | case10 =>
    cases h
    rfl

variable {s : Source}

theorem readNumber_placed (h : StartsAt text s.position s.rest) :
    Placed text (fun x => StartsAt text x.2.position x.2.rest) (readNumber s) := by
  unfold readNumber
  split
  · exact h.placeOf
  · rename_i read rest hsplit
    split
    · exact h.placeOf
    · split
      · rw [splitNumeral_parts hsplit] at h
        exact h.advanceAll read
      · exact h.placeOf

theorem withCharacter_placed {c : Char} {r : Except SyntaxError (List Char × Source)}
    (h : Placed text (fun x => StartsAt text x.2.position x.2.rest) r) :
    Placed text (fun x => StartsAt text x.2.position x.2.rest) (withCharacter c r) :=
  h.map fun _ hx => hx

/-- A string is opened at a place of the text, and an escape starts at one. -/
theorem stringBody_placed (quote : Char) {opened : Position} (ho : PlaceOf text opened)
    (p : Position) (cs : List Char) (h : StartsAt text p cs) :
    Placed text (fun x => StartsAt text x.2.position x.2.rest)
      (stringBody quote opened p cs) := by
  fun_induction stringBody quote opened p cs with
  | case1 => exact ho
  | case2 => exact ho
  | case3 p a b c d cs x _ ih =>
    exact withCharacter_placed (ih (h.advanceAll ['\\', 'u', a, b, c, d]))
  | case4 => exact h.advance.placeOf
  | case5 => exact h.advance.placeOf
  | case6 p c cs _ _ ih => exact withCharacter_placed (ih h.advance.advance)
  | case7 => exact ho
  | case8 => exact h.advance
  | case9 p c cs _ _ _ _ _ _ ih => exact withCharacter_placed (ih h.advance)

theorem readWord_startsAt (h : StartsAt text s.position s.rest) :
    StartsAt text (readWord s).2.position (readWord s).2.rest := by
  rw [← List.takeWhile_append_dropWhile (p := isNameChar) (l := s.rest)] at h
  exact h.advanceAll _

theorem advanceBy_startsAt (h : StartsAt text s.position s.rest) (n : Nat) :
    StartsAt text (s.advanceBy n).position (s.advanceBy n).rest := by
  rw [← List.take_append_drop n s.rest] at h
  exact h.advanceAll _

theorem readSign_placed (h : StartsAt text s.position s.rest) (c : Char) :
    Placed text (fun x => StartsAt text x.2.position x.2.rest) (readSign s c) := by
  unfold readSign
  split
  · exact h.placeOf
  · split
    · exact advanceBy_startsAt h _
    · repeat' split
      all_goals exact h.placeOf

theorem readToken_placed (h : StartsAt text s.position s.rest) :
    Placed text (fun x => StartsAt text x.2.position x.2.rest) (readToken s) := by
  unfold readToken
  split
  · exact h
  · rename_i c cs hs
    split
    · rw [hs] at h
      exact (stringBody_placed c h.placeOf _ cs h.advance).map fun _ hx => hx
    · split
      · exact readNumber_placed h
      · split
        · exact readWord_startsAt h
        · exact readSign_placed h c

theorem readTokens_placed (fuel : Nat) (h : StartsAt text s.position s.rest) :
    Placed text (fun ts => ∀ t ∈ ts, PlaceOf text t.position) (readTokens fuel s) := by
  induction fuel generalizing s with
  | zero => exact List.forall_mem_singleton.2 h.placeOf
  | succ fuel ih =>
    rw [readTokens]
    have gap := skipGap_placed .blank s.position s.rest trivial h
    cases hg : skipGap .blank s.position s.rest with
    | error e =>
      rw [hg] at gap
      exact gap
    | ok s₁ =>
      rw [hg] at gap
      have front := readToken_placed gap
      dsimp only
      cases ht : readToken s₁ with
      | error e =>
        rw [ht] at front
        exact front
      | ok x =>
        rw [ht] at front
        dsimp only
        split
        · exact List.forall_mem_singleton.2 (StartsAt.placeOf gap)
        · exact (ih front).map fun ts hts =>
            List.forall_mem_cons.2 ⟨StartsAt.placeOf gap, hts⟩

theorem tokenize_placed (text : String) :
    Placed text.toList (fun ts => ∀ t ∈ ts, PlaceOf text.toList t.position)
      (tokenize text) :=
  readTokens_placed _ ⟨[], rfl, rfl⟩

theorem parsed_placed {α : Type} {walking : Tokens → Walking α}
    {read : Tokens → Except SyntaxError α}
    (h : ∀ ts, Ended ts → Walk.Concludes ts (walking ts Walk.start) (read ts)) {text : String}
    {e : SyntaxError} (he : (tokenize text >>= read) = .error e) :
    PlaceOf text.toList e.position := by
  have tokens := tokenize_placed text
  rcases Walk.error_at_token h he with lexed | ⟨ts, lexed, t, ht, here⟩
  · rw [lexed] at tokens
    exact tokens
  · rw [lexed] at tokens
    rw [here]
    exact tokens t ht

/-- Whatever part of a text is read and whatever is wrong with it, the error stands behind
some beginning of the text: as many lines down as newlines are in it, and as many columns
along as characters are behind the last of them. -/
theorem syntaxError_position {text : String} {e : SyntaxError}
    (h : parseRule text = .error e ∨ parseBody text = .error e ∨
      parseParameters text = .error e) :
    ∃ before rest, text.toList = before ++ rest ∧
      e.position.line = 1 + before.count '\n' ∧
      e.position.column = 1 + (before.reverse.takeWhile (· ≠ '\n')).length := by
  have placed : PlaceOf text.toList e.position := by
    rcases h with h | h | h
    · exact parsed_placed (fun _ => Walk.rule_concludes) h
    · exact parsed_placed (fun _ => Walk.body_concludes) h
    · exact parsed_placed (fun _ => Walk.parameterList_concludes) h
  obtain ⟨rest, before, parts, here⟩ := placed
  rw [here]
  exact ⟨before, rest, parts, rfl, rfl⟩

/-- Lines are also counted inside a comment, and an error in an escape stands behind its
backslash. -/
theorem syntaxError_position_escape :
    parseRule "/* 1\n2 */\n\"\\u12\"" = .error ⟨.invalidEscape, ⟨3, 3⟩⟩ ∧
      ∃ before rest, "/* 1\n2 */\n\"\\u12\"".toList = before ++ rest ∧
        3 = 1 + before.count '\n' ∧
        3 = 1 + (before.reverse.takeWhile (· ≠ '\n')).length := by
  have read : parseRule "/* 1\n2 */\n\"\\u12\"" = .error ⟨.invalidEscape, ⟨3, 3⟩⟩ := rfl
  exact ⟨read, syntaxError_position (.inl read)⟩

end ScoreSheet.Rule
