import ScoreSheet.Proofs.Json.Numbers
import ScoreSheet.Proofs.Number.Word
import ScoreSheet.Proofs.Result
set_option autoImplicit false

namespace ScoreSheet.Json

def ReadsBack (x : Float) : Prop := parse (realText x) = .ok (.real x)

def readsBack (x : Float) : Bool :=
  match parse (realText x) with
  | .ok (.real y) => y.toBits == x.toBits
  | _ => false

theorem readsBack_iff {x : Float} : readsBack x = true ↔ ReadsBack x := by
  unfold readsBack ReadsBack
  constructor
  · intro h
    split at h
    · rename_i y hy
      rw [hy, Number.eq_of_toBits (congrArg UInt64.toNat (eq_of_beq h))]
    · cases h
  · intro h
    rw [h]
    exact beq_self_eq_true _

instance : DecidablePred ReadsBack := fun _ => decidable_of_iff _ readsBack_iff

theorem skipSpaceFrom_spaces {gap : List Char} (hg : ∀ c ∈ gap, isSpace c = true)
    (p : Position) (text : List Char) :
    skipSpaceFrom p (gap ++ text) = skipSpaceFrom (p.advanceAll gap) text := by
  induction gap generalizing p with
  | nil => rfl
  | cons c gap ih =>
    obtain ⟨hc, hg⟩ := List.forall_mem_cons.1 hg
    rw [List.cons_append, skipSpaceFrom, if_pos hc, ih hg]
    rfl

theorem skipSpace_cons {c : Char} (hc : isSpace c = false) (text : List Char) (p : Position) :
    skipSpace ⟨c :: text, p⟩ = ⟨c :: text, p⟩ := by
  change skipSpaceFrom p (c :: text) = _
  rw [skipSpaceFrom, hc]
  rfl

theorem skipSpace_gap {gap : List Char} (hg : ∀ c ∈ gap, isSpace c = true) {c : Char}
    (hc : isSpace c = false) (text : List Char) (p : Position) :
    skipSpace ⟨gap ++ c :: text, p⟩ = ⟨c :: text, p.advanceAll gap⟩ := by
  change skipSpaceFrom p (gap ++ c :: text) = _
  rw [skipSpaceFrom_spaces hg]
  exact skipSpace_cons hc text _

theorem isSpace_digit {c : Char} (h : Number.isDigit c = true) : isSpace c = false := by
  have code := Text.isDigit_iff.1 h
  simp only [isSpace, Bool.or_eq_false_iff, decide_eq_false_iff_not]
  refine ⟨⟨⟨?_, ?_⟩, ?_⟩, ?_⟩ <;>
  · rintro rfl
    revert code
    decide

theorem isSpace_toDigits (n : Nat) : ∀ c ∈ Nat.toDigits 10 n, isSpace c = false :=
  fun _ hc => isSpace_digit (isDigit_of_mem_toDigits hc)

theorem isSpace_pointed {cs : List Char} (h : ∀ c ∈ cs, isSpace c = false) :
    ∀ c ∈ pointed cs, isSpace c = false := by
  unfold pointed
  split
  · exact h
  · exact h
  · obtain ⟨hc, hcs⟩ := List.forall_mem_cons.1 h
    exact List.forall_mem_cons.2 ⟨hc, List.forall_mem_cons.2 ⟨rfl, hcs⟩⟩

theorem isSpace_positional (d : Number.Decimal) : ∀ c ∈ d.positional, isSpace c = false := by
  have digits := isSpace_toDigits d.digits
  have zeros (n : Nat) : ∀ c ∈ List.replicate n '0', isSpace c = false := by
    intro c hc
    rw [List.eq_of_mem_replicate hc]
    rfl
  unfold Number.Decimal.positional
  dsimp only
  split
  · exact List.forall_mem_append.2 ⟨digits, zeros _⟩
  · split
    · exact List.forall_mem_append.2 ⟨fun c hc => digits c (List.mem_of_mem_take hc),
        List.forall_mem_cons.2 ⟨rfl, fun c hc => digits c (List.mem_of_mem_drop hc)⟩⟩
    · exact List.forall_mem_cons.2 ⟨rfl, List.forall_mem_cons.2 ⟨rfl,
        List.forall_mem_append.2 ⟨zeros _, digits⟩⟩⟩

theorem isSpace_realDigits (d : Number.Decimal) : ∀ c ∈ realDigits d, isSpace c = false := by
  have digits := isSpace_pointed (isSpace_toDigits d.digits)
  have exponent (sign : Char) (hs : isSpace sign = false) :
      ∀ c ∈ 'e' :: sign :: Nat.toDigits 10 (leadingExponent d).natAbs, isSpace c = false :=
    List.forall_mem_cons.2 ⟨rfl, List.forall_mem_cons.2 ⟨hs, isSpace_toDigits _⟩⟩
  unfold realDigits
  dsimp only
  split
  · exact List.forall_mem_append.2 ⟨digits, exponent _ rfl⟩
  split
  · exact List.forall_mem_append.2 ⟨digits, exponent _ rfl⟩
  split
  · exact List.forall_mem_append.2
      ⟨isSpace_positional d, List.forall_mem_cons.2 ⟨rfl, List.forall_mem_singleton.2 rfl⟩⟩
  · exact isSpace_positional d

theorem isSpace_realText (x : Float) : ∀ c ∈ (realText x).toList, isSpace c = false := by
  have signed (negative : Bool) {cs : List Char} (h : ∀ c ∈ cs, isSpace c = false) :
      ∀ c ∈ (Number.signed negative cs).toList, isSpace c = false := by
    unfold Number.signed
    rw [String.toList_ofList]
    split
    · exact List.forall_mem_cons.2 ⟨rfl, h⟩
    · exact h
  unfold realText
  split
  · split
    · exact signed _ (List.forall_mem_cons.2
        ⟨rfl, List.forall_mem_cons.2 ⟨rfl, List.forall_mem_singleton.2 rfl⟩⟩)
    · exact signed _ (isSpace_realDigits _)
  · exact List.forall_mem_cons.2 ⟨rfl, List.forall_mem_cons.2
      ⟨rfl, List.forall_mem_cons.2 ⟨rfl, List.forall_mem_singleton.2 rfl⟩⟩⟩

theorem word_ok {v w : Json} {xs : List Char} {c c' : Cursor} (h : word v xs c = .ok (w, c')) :
    w = v := by
  induction xs generalizing c with
  | nil =>
    cases h
    rfl
  | cons x xs ih =>
    unfold word at h
    split at h
    · cases h
    · split at h
      · exact ih h
      · exact absurd h failNext_ne_ok

/-- The value `v` that starts at `c` and ends at `c'`, by the character it starts with. -/
inductive Begun (inner? : Option (Read Json)) (c : Cursor) : Json → Cursor → Prop
  | null (c' : Cursor) : Begun inner? c .null c'
  | bool (b : Bool) (c' : Cursor) : Begun inner? c (.bool b) c'
  | minus {v : Json} {c' : Cursor} (start : c.rest.head? = some '-')
      (h : number true (c.drop 1) = .ok (v, c')) : Begun inner? c v c'
  | digit {d : Char} {v : Json} {c' : Cursor} (start : c.rest.head? = some d)
      (hd : Number.isDigit d = true) (h : number false c = .ok (v, c')) : Begun inner? c v c'
  | string {s : String} {c' : Cursor} (h : stringText (c.drop 1) = .ok (s, c')) :
      Begun inner? c (.string s) c'
  | array {inner : Read Json} {items : List Json} {c' : Cursor} (hi : inner? = some inner)
      (h : listItems inner (c.rest.length + 1) true (c.drop 1) = .ok (items, c')) :
      Begun inner? c (.array items) c'
  | object {inner : Read Json} {members : List (String × Json)} {c' : Cursor}
      (hi : inner? = some inner)
      (h : objectMembers inner (c.rest.length + 1) true [] (c.drop 1) = .ok (members, c')) :
      Begun inner? c (.object members) c'

theorem valueWith_begun {inner? : Option (Read Json)} {c c' : Cursor} {v : Json}
    (h : valueWith inner? c = .ok (v, c')) : Begun inner? (skipSpace c) v c' := by
  unfold valueWith at h
  generalize skipSpace c = c at h
  dsimp only at h
  split at h
  · cases h
  rename_i x _ head
  have start : c.rest.head? = some x := by rw [head]; rfl
  split at h
  · exact word_ok h ▸ .null c'
  split at h
  · exact word_ok h ▸ .bool true c'
  split at h
  · exact word_ok h ▸ .bool false c'
  split at h
  · rename_i minus
    exact .minus (minus ▸ start) h
  split at h
  · rename_i hd
    exact .digit start hd h
  split at h
  · obtain ⟨⟨s, c⟩, read, h⟩ := map_ok h
    cases h
    exact .string read
  split at h
  · split at h
    · exact absurd h failNext_ne_ok
    · obtain ⟨⟨items, c⟩, read, h⟩ := map_ok h
      cases h
      exact .array rfl read
  split at h
  · split at h
    · exact absurd h failNext_ne_ok
    · obtain ⟨⟨members, c⟩, read, h⟩ := map_ok h
      cases h
      exact .object rfl read
  · exact absurd h failNext_ne_ok

section Values
variable (inner? : Option (Read Json))

theorem valueWith_minus {text : List Char} {v : Json} {rest : List Char}
    (h : Reads (number true) text v rest) :
    Reads (valueWith inner?) ('-' :: text) v rest := by
  intro p
  obtain ⟨q, hq⟩ := h (p.advanceAll ['-'])
  refine ⟨q, ?_⟩
  unfold valueWith
  dsimp only
  rw [List.cons_append, skipSpace_cons (by decide)]
  exact hq

theorem valueWith_digit {d : Char} (hd : Number.isDigit d = true) {text : List Char} {v : Json}
    {rest : List Char} (h : Reads (number false) (d :: text) v rest) :
    Reads (valueWith inner?) (d :: text) v rest := by
  intro p
  obtain ⟨q, hq⟩ := h p
  refine ⟨q, ?_⟩
  have other {x : Char} (hx : Number.isDigit x = false) : d ≠ x := by
    rintro rfl
    rw [hd] at hx
    cases hx
  unfold valueWith
  dsimp only
  rw [List.cons_append, skipSpace_cons (isSpace_digit hd)]
  dsimp only
  rw [if_neg (other (by decide)), if_neg (other (by decide)), if_neg (other (by decide)),
    if_neg (other (by decide)), if_pos hd]
  exact hq

theorem valueWith_integer {n : Int} (hn : Wide n) {rest : List Char} (hr : Delimited rest) :
    Reads (valueWith inner?) (integerText n) (.integer n) rest := by
  have fits : n.natAbs ≤ significandLimit := by
    obtain ⟨low, high⟩ := hn
    change n.natAbs ≤ 2 ^ 64 - 1
    omega
  have read := number_digits (decide (n < 0)) fits hr
  rw [wholeNumber_natAbs hn] at read
  unfold integerText
  split
  · rename_i negative
    rw [decide_eq_true negative] at read
    exact valueWith_minus inner? read
  · rename_i positive
    rw [decide_eq_false positive] at read
    obtain ⟨d, ds, hd⟩ :=
      List.exists_cons_of_ne_nil (Nat.toDigits_ne_nil (n := n.natAbs) (b := 10))
    rw [hd] at read ⊢
    have digit : Number.isDigit d = true :=
      isDigit_of_mem_toDigits (n := n.natAbs) (by rw [hd]; exact List.mem_cons_self)
    exact valueWith_digit inner? digit read

theorem valueWith_string (s : String) (rest : List Char) :
    Reads (valueWith inner?) ('"' :: quoteTail s) (.string s) rest := by
  intro p
  obtain ⟨q, hq⟩ := stringText_quoteTail s rest (p.advanceAll ['"'])
  refine ⟨q, ?_⟩
  unfold valueWith
  dsimp only
  rw [List.cons_append, skipSpace_cons (by decide)]
  change (stringText ⟨quoteTail s ++ rest, p.advanceAll ['"']⟩).map _ = _
  rw [hq]
  rfl

theorem valueWith_null (rest : List Char) :
    Reads (valueWith inner?) ['n', 'u', 'l', 'l'] .null rest :=
  fun _ => ⟨_, rfl⟩

theorem valueWith_bool (b : Bool) (rest : List Char) :
    Reads (valueWith inner?) (if b then "true" else "false").toList (.bool b) rest := by
  cases b with
  | true => exact fun _ => ⟨_, rfl⟩
  | false => exact fun _ => ⟨_, rfl⟩

theorem number_whole {negative : Bool} {text : List Char} {p : Position} {v : Json} {c : Cursor}
    (h : number negative ⟨text, p⟩ = .ok (v, c)) (he : (skipSpace c).rest.isEmpty = true)
    (hs : ∀ c ∈ text, isSpace c = false) {rest : List Char} (hr : Delimited rest) :
    Reads (number negative) text v rest := by
  obtain ⟨suffix, extends_⟩ := number_extends negative text p v c h
  have all_read : c.rest = [] := by
    obtain ⟨left, q⟩ := c
    cases left with
    | nil => rfl
    | cons y left =>
      rw [skipSpace_cons (hs y (suffix.mem List.mem_cons_self))] at he
      cases he
  have read := extends_ rest hr
  rwa [all_read] at read

theorem valueWith_real {x : Float} (h : ReadsBack x) {rest : List Char} (hr : Delimited rest) :
    Reads (valueWith inner?) (realText x).toList (.real x) rest := by
  obtain ⟨⟨v, c⟩, hv, h⟩ := bind_ok h
  dsimp only at h
  split at h
  · rename_i he
    cases h
    have no_space := isSpace_realText x
    have begun : Begun _ (skipSpace ⟨(realText x).toList, ⟨1, 0⟩⟩) (.real x) c :=
      valueWith_begun hv
    generalize (realText x).toList = text at begun no_space
    cases text with
    | nil =>
      cases begun with
      | minus start _ => cases start
      | digit start _ _ => cases start
    | cons d ds =>
      obtain ⟨hd, hds⟩ := List.forall_mem_cons.1 no_space
      rw [skipSpace_cons hd] at begun
      cases begun with
      | minus start read =>
        cases start
        exact valueWith_minus inner? (number_whole read he hds hr)
      | digit start digit read =>
        cases start
        exact valueWith_digit inner? digit (number_whole read he no_space hr)
  · exact absurd h failNext_ne_ok

end Values

end ScoreSheet.Json
