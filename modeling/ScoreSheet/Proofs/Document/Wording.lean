import ScoreSheet.Document.Reading
import ScoreSheet.Proofs.Json.Scalars
set_option autoImplicit false

/-! The class of an error is read off the words of its message. A message quotes the document
behind a character that none of the words has, so that each of them stands either in the
fixed text or in what is quoted. -/
namespace ScoreSheet.Document

def folded (text : String) : List Char := text.toList.map foldCase

/-- The words stand in the text, in capitals or not. -/
def Mentions (words text : String) : Prop := words.toList <:+: folded text

def NamesUnknown (text : String) : Prop :=
  Mentions "unknown variant" text ∨ Mentions "unknown field" text

def NamesMismatch (text : String) : Prop :=
  Mentions "missing field" text ∨ Mentions "invalid type" text ∨
    Mentions "invalid value" text ∨ Mentions "expected" text

/-! ## Words in a text -/

theorem occursIn_iff {word text : List Char} : occursIn word text ↔ word <:+: text := by
  induction text with
  | nil => simp [occursIn]
  | cons c cs ih => simp [occursIn, List.infix_cons_iff, ih]

instance (words text : String) : Decidable (Mentions words text) :=
  decidable_of_iff (occursIn words.toList (folded text)) occursIn_iff

instance (text : String) : Decidable (NamesUnknown text) := inferInstanceAs (Decidable (_ ∨ _))

instance (text : String) : Decidable (NamesMismatch text) := inferInstanceAs (Decidable (_ ∨ _))

/-- What lacks a character stands on one side of it. -/
theorem infix_around {c : Char} {w x y : List Char} (hc : c ∉ w) :
    w <:+: x ++ c :: y ↔ w <:+: x ∨ w <:+: y := by
  have not_front {l : List Char} (hl : l ⊆ w) (h : l <+: c :: y) : l = [] := by
    rcases List.prefix_cons_iff.1 h with rfl | ⟨t, rfl, -⟩
    · rfl
    · exact absurd (hl List.mem_cons_self) hc
  rw [List.infix_append_iff, List.infix_cons_iff]
  constructor
  · rintro (h | (h | h) | ⟨front, back, rfl, hf, hb⟩)
    · exact .inl h
    · rw [not_front (List.Subset.refl _) h]
      exact .inl (List.nil_infix)
    · exact .inr h
    · rw [not_front (List.subset_append_right _ _) hb, List.append_nil]
      exact .inl hf.isInfix
  · rintro (h | h)
    · exact .inl h
    · exact .inr (.inl (.inr h))

theorem folded_append (a b : String) : folded (a ++ b) = folded a ++ folded b := by
  unfold folded
  rw [String.toList_append, List.map_append]

theorem Mentions.append_left {words b : String} (h : Mentions words b) (a : String) :
    Mentions words (a ++ b) := by
  unfold Mentions
  rw [folded_append]
  exact h.trans (List.suffix_append _ _).isInfix

theorem Mentions.append_right {words a : String} (h : Mentions words a) (b : String) :
    Mentions words (a ++ b) := by
  unfold Mentions
  rw [folded_append]
  exact h.trans (List.prefix_append _ _).isInfix

/-- Words that are not in front of a text and lack its first character stand in the text. -/
theorem mentions_behind {words a text : String} {c : Char} (hc : c ∉ words.toList)
    (ht : (folded text).head? = some c) (ha : ¬ Mentions words a) :
    Mentions words (a ++ text) ↔ Mentions words text := by
  obtain ⟨cs, ht⟩ := List.head?_eq_some_iff.1 ht
  have not_front : words.toList <:+: [] → words.toList <:+: folded a :=
    fun h => h.trans List.nil_infix
  have alone : words.toList <:+: [] ++ c :: cs ↔ _ := infix_around hc
  unfold Mentions at ha ⊢
  rw [folded_append, ht, infix_around hc, or_iff_right ha]
  exact (alone.trans (or_iff_right (mt not_front ha))).symm

/-! ## Classes -/

theorem classify_eq (message : String) : classify message =
    if NamesUnknown message then .unknownVariant
    else if NamesMismatch message then .typeMismatch else .syntaxError := by
  have mentions (words : String) : occursIn words.toList (message.toList.map foldCase) = true ↔
      Mentions words message := occursIn_iff
  refine ite_congr (propext ?_) (fun _ => rfl) fun _ =>
    ite_congr (propext ?_) (fun _ => rfl) fun _ => rfl
  · rw [Bool.or_eq_true, mentions, mentions]
    rfl
  · rw [Bool.or_eq_true, Bool.or_eq_true, Bool.or_eq_true, mentions, mentions, mentions, mentions,
      or_assoc, or_assoc]
    rfl

/-! ## Quoted strings -/

def letters : List Char := "unkow variatfeld".toList

theorem foldCase_eq_self {c : Char} (hk : c ≠ '\u212a') (h : 128 ≤ c.toNat) : foldCase c = c := by
  have no_capital : ¬ (c.val ≥ 'A'.val ∧ c.val ≤ 'Z'.val) := by
    rintro ⟨-, upper⟩
    have code : c.toNat ≤ 'Z'.toNat := upper
    exact absurd (Nat.le_trans h code) (by decide)
  unfold foldCase Char.toLower
  rw [if_neg hk, dif_neg no_capital]

/-- Only ASCII characters and the Kelvin sign have a lower case in ASCII. -/
theorem of_foldCase_lt {p : Char → Prop} (kelvin : p '\u212a') (ascii : ∀ n < 128, p (Char.ofNat n))
    {c : Char} (h : (foldCase c).toNat < 128) : p c := by
  by_cases hk : c = '\u212a'
  · exact hk ▸ kelvin
  · by_cases small : c.toNat < 128
    · have hc := ascii c.toNat small
      rwa [Char.ofNat_toNat] at hc
    · rw [foldCase_eq_self hk (Nat.not_lt.1 small)] at h
      exact absurd h small

theorem foldCase_eq_space {c : Char} (h : foldCase c = ' ') : c = ' ' :=
  of_foldCase_lt (p := fun c => foldCase c = ' ' → c = ' ') (by decide) (by decide)
    (h ▸ by decide) h

theorem isPrintable_ascii {c : Char} (low : 0x20 ≤ c.toNat) (high : c.toNat < 0x7F) :
    Text.isPrintable c = true := by
  have ranges : Text.unprintable.all (fun r => decide (r.2 < 0x20 ∨ 0x7F ≤ r.1)) = true := by
    decide +kernel
  unfold Text.isPrintable
  rw [Bool.not_eq_true', List.any_eq_false]
  intro r hr
  have outside := of_decide_eq_true (List.all_eq_true.1 ranges r hr)
  rw [Bool.and_eq_true, decide_eq_true_eq, decide_eq_true_eq]
  omega

/-- What is a letter in lower case is quoted as it is. -/
theorem quoteChar_letter {c : Char} (h : foldCase c ∈ letters) : Text.quoteChar c = [c] := by
  have code : letters.all (fun a => decide (a.toNat < 128)) = true := by decide
  have plain : ∀ n < 128, foldCase (Char.ofNat n) ∈ letters →
      0x20 ≤ (Char.ofNat n).toNat ∧ (Char.ofNat n).toNat < 0x7F ∧
        Char.ofNat n ∉ ['"', '\\', '\n', '\r', '\t', '\x00'] := by
    decide +kernel
  refine of_foldCase_lt (p := fun c => foldCase c ∈ letters → Text.quoteChar c = [c])
    (by decide +kernel) (fun n hn letter => ?_)
    (of_decide_eq_true (List.all_eq_true.1 code _ h)) h
  obtain ⟨low, high, unescaped⟩ := plain n hn letter
  simp only [List.mem_cons, List.not_mem_nil, or_false, not_or] at unescaped
  obtain ⟨hq, hb, hn, hr, ht, hz⟩ := unescaped
  unfold Text.quoteChar
  rw [if_neg hq, if_neg hb, if_neg hn, if_neg hr, if_neg ht, if_neg hz,
    if_pos (isPrintable_ascii low high)]

/-- What is not quoted as it is is no letter and stands behind a backslash. -/
theorem quoteChar_cases (c : Char) : Text.quoteChar c = [c] ∨ foldCase c ∉ letters ∧
    ((∃ e, foldCase e ≠ 'u' ∧ Text.quoteChar c = ['\\', e]) ∨
      Text.quoteChar c = '\\' :: 'u' :: '\x7b' :: (Text.hexDigits c.toNat ++ ['\x7d'])) := by
  by_cases letter : foldCase c ∈ letters
  · exact .inl (quoteChar_letter letter)
  unfold Text.quoteChar
  repeat' split
  all_goals first
    | exact .inl rfl
    | exact .inr ⟨letter, .inr rfl⟩
    | exact .inr ⟨letter, .inl ⟨_, by decide, rfl⟩⟩

theorem foldCase_toDigits {b n : Nat} (two : 1 < b) (small : b ≤ 16) :
    ∀ c ∈ Nat.toDigits b n, foldCase c ≠ 'k' := by
  have digit : ∀ d < 16, foldCase (Nat.digitChar d) ≠ 'k' := by decide
  induction n using Nat.strongRecOn with
  | _ n ih =>
    by_cases hn : n < b
    · rw [Nat.toDigits_of_lt_base hn]
      exact List.forall_mem_singleton.2 (digit n (Nat.lt_of_lt_of_le hn small))
    · have less : n / b < n := Nat.div_lt_self (by omega) two
      have last : n % b < b := Nat.mod_lt n (by omega)
      rw [Nat.toDigits_of_base_le two (Nat.not_lt.1 hn)]
      exact List.forall_mem_append.2 ⟨ih (n / b) less,
        List.forall_mem_singleton.2 (digit _ (Nat.lt_of_lt_of_le last small))⟩

theorem prefix_escaped {w : List Char} (hw : w ⊆ letters) (cs : List Char) :
    w <+: (cs.flatMap Text.quoteChar).map foldCase ↔ w <+: cs.map foldCase := by
  induction cs generalizing w with
  | nil => rfl
  | cons c cs ih =>
    cases w with
    | nil => simp
    | cons a w =>
      obtain ⟨ha, hw⟩ := List.cons_subset.1 hw
      rw [List.flatMap_cons, List.map_append, List.map_cons, List.cons_prefix_cons, ← ih hw]
      rcases quoteChar_cases c with same | ⟨other, escaped⟩
      · rw [same]
        exact List.cons_prefix_cons
      · have begins : ∃ t, (Text.quoteChar c).map foldCase = '\\' :: t := by
          rcases escaped with ⟨e, -, h⟩ | h <;> exact ⟨_, congrArg (List.map foldCase) h⟩
        obtain ⟨t, ht⟩ := begins
        rw [ht, List.cons_append, List.cons_prefix_cons]
        refine iff_of_false (fun h => ?_) fun h => other (h.1 ▸ ha)
        rw [h.1] at ha
        exact absurd ha (by decide)

/-- An escape holds nothing of words that begin with `un` and have a `k`. -/
theorem infix_behind_escape {t rest escape : List Char} (ht : 'u' :: 'n' :: t ⊆ letters)
    (hk : 'k' ∈ t) (shape : (∃ e, foldCase e ≠ 'u' ∧ escape = ['\\', e]) ∨
      ∃ n, escape = '\\' :: 'u' :: '\x7b' :: (Text.hexDigits n ++ ['\x7d'])) :
    'u' :: 'n' :: t <:+: escape.map foldCase ++ rest ↔ 'u' :: 'n' :: t <:+: rest := by
  have absent {c : Char} (hc : c ∉ letters) : c ∉ 'u' :: 'n' :: t := fun h => hc (ht h)
  have no_nil : ¬ 'u' :: 'n' :: t <:+: [] := by simp
  rcases shape with ⟨e, he, rfl⟩ | ⟨n, rfl⟩
  · change _ <:+: [] ++ '\\' :: foldCase e :: rest ↔ _
    rw [infix_around (absent (by decide)), or_iff_right no_nil, List.infix_cons_iff,
      or_iff_right]
    exact fun h => he (List.cons_prefix_cons.1 h).1.symm
  · have no_digits : ¬ 'u' :: 'n' :: t <:+: (Text.hexDigits n).map foldCase := by
      intro h
      obtain ⟨c, hc, folds⟩ := List.mem_map.1 (h.subset (.tail _ (.tail _ hk)))
      exact foldCase_toDigits (by decide) (by decide) c hc folds
    have no_u : ¬ 'u' :: 'n' :: t <:+: ['u'] := fun h => by simpa using h.length_le
    have shape :
        List.map foldCase ('\\' :: 'u' :: '\x7b' :: (Text.hexDigits n ++ ['\x7d'])) ++ rest =
        [] ++ '\\' :: (['u'] ++ '\x7b' :: ((Text.hexDigits n).map foldCase ++ '\x7d' :: rest)) := by
      simp [foldCase]
    rw [shape, infix_around (absent (by decide)), infix_around (absent (by decide)),
      infix_around (absent (by decide)), or_iff_right no_nil, or_iff_right no_u,
      or_iff_right no_digits]

/-- Words of letters that begin with `un` and have a `k` stand in a text if they stand in
what is quoted of it. -/
theorem infix_escaped {t cs : List Char} (ht : 'u' :: 'n' :: t ⊆ letters) (hk : 'k' ∈ t) :
    'u' :: 'n' :: t <:+: (cs.flatMap Text.quoteChar).map foldCase ↔
      'u' :: 'n' :: t <:+: cs.map foldCase := by
  induction cs with
  | nil => rfl
  | cons c cs ih =>
    rw [List.map_cons, List.infix_cons_iff, ← ih, List.flatMap_cons, List.map_append]
    rcases quoteChar_cases c with same | ⟨other, escaped⟩
    · have front := prefix_escaped ht (c :: cs)
      rw [List.flatMap_cons, List.map_append, same] at front
      rw [same, ← List.map_cons, ← front]
      exact List.infix_cons_iff
    · have not_front : ¬ 'u' :: 'n' :: t <+: foldCase c :: cs.map foldCase := by
        rw [List.cons_prefix_cons]
        exact fun h => other (h.1 ▸ ht List.mem_cons_self)
      rw [or_iff_right not_front]
      exact infix_behind_escape ht hk (escaped.imp_right fun h => ⟨c.toNat, h⟩)

def escaped (s : String) : String := .ofList (s.toList.flatMap Text.quoteChar)

theorem quoted_eq (s : String) : Text.quoted s = "\"" ++ escaped s ++ "\"" := by
  unfold Text.quoted escaped
  rw [← String.toList_inj]
  simp

theorem namesUnknown_escaped {s : String} : NamesUnknown (escaped s) ↔ NamesUnknown s := by
  have same (t : List Char) (ht : 'u' :: 'n' :: t ⊆ letters) (hk : 'k' ∈ t) :
      'u' :: 'n' :: t <:+: folded (escaped s) ↔ 'u' :: 'n' :: t <:+: folded s := by
    unfold folded escaped
    rw [String.toList_ofList, infix_escaped ht hk]
  exact or_congr (same "known variant".toList (by decide) (by decide))
    (same "known field".toList (by decide) (by decide))

/-- Words of letters stand in front of a delimiter, between it and the next or behind. -/
theorem namesUnknown_between {a q b d : String} {c : Char} (hd : folded d = [c])
    (hc : c ∉ letters) : NamesUnknown (a ++ (d ++ q ++ d) ++ b) ↔
      NamesUnknown a ∨ NamesUnknown q ∨ NamesUnknown b := by
  have between {w : List Char} (hw : w ⊆ letters) :
      w <:+: folded (a ++ (d ++ q ++ d) ++ b) ↔
        w <:+: folded a ∨ w <:+: folded q ∨ w <:+: folded b := by
    have absent : c ∉ w := fun hcw => hc (hw hcw)
    have parts : folded (a ++ (d ++ q ++ d) ++ b) =
        folded a ++ c :: (folded q ++ c :: folded b) := by
      simp [folded_append, hd]
    rw [parts, infix_around absent, infix_around absent]
  unfold NamesUnknown Mentions
  rw [between (by decide), between (by decide)]
  exact or_or_or_comm.trans (or_congr_right or_or_or_comm)

/-! ## Messages -/

def Bare (text : String) : Prop := 'k' ∉ folded text

instance (text : String) : Decidable (Bare text) := inferInstanceAs (Decidable (¬ _))

theorem bare_append {a b : String} : Bare (a ++ b) ↔ Bare a ∧ Bare b := by
  unfold Bare
  rw [folded_append, List.mem_append, not_or]

theorem Bare.not_namesUnknown {text : String} (h : Bare text) : ¬ NamesUnknown text := by
  rintro (unknown | unknown)
  · exact h (unknown.subset (by decide))
  · exact h (unknown.subset (by decide))

theorem bare_int (n : Int) : Bare (toString n) := by
  intro h
  obtain ⟨c, hc, folds⟩ := List.mem_map.1 h
  have digit := foldCase_toDigits (n := n.natAbs) (show 1 < 10 by decide) (by decide)
  rw [Json.toList_toString] at hc
  unfold Json.integerText at hc
  split at hc
  · exact List.forall_mem_cons.2 ⟨by decide, digit⟩ c hc folds
  · exact digit c hc folds

theorem namesUnknown_realText (x : Float) : ¬ NamesUnknown (Json.realText x) := by
  have no_blank : ' ' ∉ folded (Json.realText x) := by
    intro h
    obtain ⟨c, hc, folds⟩ := List.mem_map.1 h
    have no_space := Json.isSpace_realText x c hc
    rw [foldCase_eq_space folds] at no_space
    cases no_space
  rintro (unknown | unknown)
  · exact no_blank (unknown.subset (by decide))
  · exact no_blank (unknown.subset (by decide))

/-- Errors in which nothing that a form provides has a `k`, and in which what stands in
place of a datum is none. -/
def ShapeError.Plain : ShapeError → Prop
  | .mismatch _ wanted | .outOfRange _ wanted | .tooFew _ wanted _ => Bare wanted.describe
  | .missing field => Bare field
  | .noDatum found => datum found = .error (.noDatum found)
  | .unknownKind _ => False
  | .notOneKey | .tooMany _ => True

/-- The message has the words for an unknown name because the document has them. -/
def ShapeError.Misquoted : ShapeError → Prop
  | .noDatum found => NamesUnknown found.compact
  | .mismatch (.string s) _ => NamesUnknown s
  | _ => False

/-- No words tell that a datum was wanted, neither those of the message nor of the document. -/
def ShapeError.Unnoticed : ShapeError → Prop
  | .noDatum found => ¬ NamesUnknown found.compact ∧ ¬ NamesMismatch found.compact
  | _ => False

theorem message_mismatch (found : Json) (wanted : Expectation) :
    (ShapeError.mismatch found wanted).message =
      "invalid type: " ++ describe found ++ (", expected " ++ wanted.describe) := by
  change "invalid type: " ++ describe found ++ ", expected " ++ wanted.describe = _
  rw [String.append_assoc]

theorem describe_real (x : Float) :
    describe (.real x) = "floating point " ++ ("`" ++ Json.realText x ++ "`") := by
  have opening : "floating point `" = "floating point " ++ "`" := by decide
  change "floating point `" ++ Json.realText x ++ "`" = _
  rw [opening, String.append_assoc, String.append_assoc, String.append_assoc]

theorem describe_string (s : String) :
    describe (.string s) = "string " ++ ("\"" ++ escaped s ++ "\"") := by
  change "string " ++ Text.quoted s = _
  rw [quoted_eq]

theorem namesUnknown_mismatch {found : Json} {wanted : Expectation} (h : Bare wanted.describe) :
    NamesUnknown (ShapeError.mismatch found wanted).message ↔
      (ShapeError.mismatch found wanted).Misquoted := by
  have behind : ¬ NamesUnknown (", expected " ++ wanted.describe) :=
    (bare_append.2 ⟨by decide, h⟩).not_namesUnknown
  have bare (text : String) (ht : Bare text) :
      ¬ NamesUnknown ("invalid type: " ++ text ++ (", expected " ++ wanted.describe)) :=
    (bare_append.2 ⟨bare_append.2 ⟨by decide, ht⟩,
      bare_append.2 ⟨by decide, h⟩⟩).not_namesUnknown
  have quoted {front q d : String} {c : Char} (hf : Bare front) (hd : folded d = [c])
      (hc : c ∉ letters) : NamesUnknown ("invalid type: " ++ (front ++ (d ++ q ++ d)) ++
        (", expected " ++ wanted.describe)) ↔ NamesUnknown q := by
    have before : ¬ NamesUnknown ("invalid type: " ++ front) :=
      (bare_append.2 ⟨by decide, hf⟩).not_namesUnknown
    have regroup : "invalid type: " ++ (front ++ (d ++ q ++ d)) =
        "invalid type: " ++ front ++ (d ++ q ++ d) := String.append_assoc.symm
    rw [regroup, namesUnknown_between hd hc, or_iff_right before, or_iff_left behind]
  rw [message_mismatch]
  cases found with
  | null => exact iff_of_false (bare "null" (by decide)) id
  | bool b => cases b <;> exact iff_of_false (bare _ (by decide)) id
  | integer n =>
    have number : Bare ("integer `" ++ toString n ++ "`") :=
      bare_append.2 ⟨bare_append.2 ⟨by decide, bare_int n⟩, by decide⟩
    exact iff_of_false (bare _ number) id
  | real x =>
    rw [describe_real, quoted (c := '\x60') (by decide) (by decide) (by decide)]
    exact iff_of_false (namesUnknown_realText x) id
  | string s =>
    rw [describe_string, quoted (c := '"') (by decide) (by decide) (by decide)]
    exact namesUnknown_escaped
  | array items => exact iff_of_false (bare "sequence" (by decide)) id
  | object members => exact iff_of_false (bare "map" (by decide)) id

theorem message_outOfRange (n : Int) (wanted : Expectation) :
    (ShapeError.outOfRange n wanted).message =
      "invalid value: integer `" ++ toString n ++ "`, expected " ++ wanted.describe := rfl

theorem message_notOneKey :
    ShapeError.notOneKey.message = "invalid value: map, expected map with a single key" := rfl

theorem message_missing (field : String) :
    (ShapeError.missing field).message = "missing field `" ++ field ++ "`" := rfl

theorem message_tooFew (count : Nat) (wanted : Expectation) (size : Nat) :
    (ShapeError.tooFew count wanted size).message = "invalid length " ++ toString count ++
      ", expected " ++ wanted.describe ++ " with " ++ toString size ++ " elements" := rfl

theorem message_tooMany (count : Nat) : (ShapeError.tooMany count).message =
    "invalid length " ++ toString count ++ ", expected fewer elements in array" := rfl

theorem message_noDatum (found : Json) : (ShapeError.noDatum found).message =
    "state value must be a string, number or boolean, got " ++ found.compact := rfl

theorem bare_nat (n : Nat) : Bare (toString n) := bare_int n

/-- What stands in place of a datum is quoted as `null` or behind a bracket. -/
theorem mentions_noDatum {words : String} {found : Json}
    (none : datum found = .error (.noDatum found))
    (opening : '[' ∉ words.toList ∧ '\x7b' ∉ words.toList)
    (null : ¬ Mentions words ("state value must be a string, number or boolean, got " ++ "null")) :
    Mentions words (ShapeError.noDatum found).message ↔ Mentions words found.compact := by
  have front : ¬ Mentions words "state value must be a string, number or boolean, got " :=
    fun h => null (h.append_right _)
  rw [message_noDatum]
  cases found with
  | null =>
    rw [Json.compact]
    exact iff_of_false null fun h => null (h.append_left _)
  | array items =>
    refine mentions_behind opening.1 ?_ front
    rw [Json.compact, folded_append, folded_append]
    rfl
  | object members =>
    refine mentions_behind opening.2 ?_ front
    rw [Json.compact, folded_append, folded_append]
    rfl
  | _ => cases none

theorem namesUnknown_message {e : ShapeError} (h : e.Plain) :
    NamesUnknown e.message ↔ e.Misquoted := by
  cases e with
  | mismatch found wanted => exact namesUnknown_mismatch h
  | outOfRange n wanted =>
    rw [message_outOfRange]
    exact iff_of_false (Bare.not_namesUnknown (bare_append.2 ⟨bare_append.2
      ⟨bare_append.2 ⟨by decide, bare_int n⟩, by decide⟩, h⟩)) id
  | notOneKey =>
    rw [message_notOneKey]
    exact iff_of_false (by decide) id
  | unknownKind name => exact h.elim
  | missing field =>
    rw [message_missing]
    exact iff_of_false (Bare.not_namesUnknown (bare_append.2
      ⟨bare_append.2 ⟨by decide, h⟩, by decide⟩)) id
  | tooFew count wanted size =>
    rw [message_tooFew]
    have bare : Bare ("invalid length " ++ toString count ++ ", expected " ++ wanted.describe ++
        " with " ++ toString size ++ " elements") := by
      simp only [bare_append]
      exact ⟨⟨⟨⟨⟨⟨by decide, bare_nat count⟩, by decide⟩, h⟩, by decide⟩, bare_nat size⟩, by decide⟩
    exact iff_of_false bare.not_namesUnknown id
  | tooMany count =>
    rw [message_tooMany]
    exact iff_of_false (Bare.not_namesUnknown (bare_append.2
      ⟨bare_append.2 ⟨by decide, bare_nat count⟩, by decide⟩)) id
  | noDatum found =>
    exact or_congr (mentions_noDatum h (by decide) (by decide))
      (mentions_noDatum h (by decide) (by decide))

theorem namesMismatch_message {e : ShapeError} (h : e.Plain) (hm : ¬ e.Misquoted) :
    NamesMismatch e.message ↔ ¬ e.Unnoticed := by
  cases e with
  | mismatch found wanted =>
    rw [message_mismatch]
    exact iff_of_true (.inr (.inl ((Mentions.append_right (by decide) _).append_right _))) id
  | outOfRange n wanted =>
    rw [message_outOfRange]
    exact iff_of_true (.inr (.inr (.inl
      (((Mentions.append_right (by decide) _).append_right _).append_right _)))) id
  | notOneKey =>
    rw [message_notOneKey]
    exact iff_of_true (by decide) id
  | unknownKind name => exact h.elim
  | missing field =>
    rw [message_missing]
    exact iff_of_true (.inl ((Mentions.append_right (by decide) _).append_right _)) id
  | tooFew count wanted size =>
    rw [message_tooFew]
    have named : Mentions "expected" ("invalid length " ++ toString count ++ ", expected ") :=
      Mentions.append_left (by decide) _
    exact iff_of_true (.inr (.inr (.inr
      ((((named.append_right _).append_right _).append_right _).append_right _)))) id
  | tooMany count =>
    rw [message_tooMany]
    exact iff_of_true (.inr (.inr (.inr (Mentions.append_left (by decide) _)))) id
  | noDatum found =>
    have quoted : NamesMismatch (ShapeError.noDatum found).message ↔ NamesMismatch found.compact :=
      or_congr (mentions_noDatum h (by decide) (by decide)) <|
        or_congr (mentions_noDatum h (by decide) (by decide)) <|
          or_congr (mentions_noDatum h (by decide) (by decide))
            (mentions_noDatum h (by decide) (by decide))
    refine quoted.trans ⟨fun noticed unnoticed => unnoticed.2 noticed, fun noticed => ?_⟩
    exact Decidable.byContradiction fun other => noticed ⟨hm, other⟩

theorem ShapeError.Misquoted.not_unnoticed {e : ShapeError} (h : e.Misquoted) : ¬ e.Unnoticed := by
  cases e with
  | noDatum found => exact fun unnoticed => unnoticed.1 h
  | _ => exact id

/-- The class of an error other than an unknown kind. -/
theorem classify_message {e : ShapeError} (h : e.Plain) :
    (classify e.message = .syntaxError ↔ e.Unnoticed) ∧
      (classify e.message = .unknownVariant ↔ e.Misquoted) ∧
        (classify e.message = .typeMismatch ↔ ¬ e.Unnoticed ∧ ¬ e.Misquoted) := by
  rw [classify_eq]
  by_cases misquoted : e.Misquoted
  · rw [if_pos ((namesUnknown_message h).2 misquoted)]
    simp [misquoted, misquoted.not_unnoticed]
  · rw [if_neg (mt (namesUnknown_message h).1 misquoted)]
    have mismatch := namesMismatch_message h misquoted
    by_cases unnoticed : e.Unnoticed
    · rw [if_neg (mt mismatch.1 (not_not_intro unnoticed))]
      simp [misquoted, unnoticed]
    · rw [if_pos (mismatch.2 unnoticed)]
      simp [misquoted, unnoticed]

theorem classify_unknownKind (name : String) :
    classify (ShapeError.unknownKind name).message = .unknownVariant := by
  have named : Mentions "unknown variant" ("unknown variant `" ++ name) :=
    Mentions.append_right (by decide) _
  rw [classify_eq, if_pos (.inl (named.append_right _))]

end ScoreSheet.Document
