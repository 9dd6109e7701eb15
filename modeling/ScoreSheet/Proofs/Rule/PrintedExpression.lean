import ScoreSheet.Proofs.Rule.PrintedText
set_option autoImplicit false

/-! The words of an expression derive it at the strength of its outermost operator, and what is
derived at some strength is derived at every weaker one. Parentheses lead back to the
strongest. -/
namespace ScoreSheet.Rule

/-- The words derive the expression where operators of the strength and stronger ones may
stand. -/
def DerivesAt : Nat → List Token → Expr → Prop
  | 0, w, e => Derives .expression w e
  | 7, w, e => Derives .prefixed w e
  | 8, w, e => Derives .selected w e
  | 9, w, e => Derives .primary w e
  | n + 1, w, e => Derives (.operation (Level.all.drop n)) w e

section Strengths
variable {w v : List Token} {e f : Expr}

theorem DerivesAt.of_succ {n : Nat} (hn : n < 9) (h : DerivesAt (n + 1) w e) :
    DerivesAt n w e := by
  match n, hn, h with
  | 0, _, h => exact Derives.operation h
  | 1, _, h | 2, _, h | 3, _, h | 4, _, h | 5, _, h => exact Derives.tighter h
  | 6, _, h => exact Derives.tighter (.operand h)
  | 7, _, h => exact Derives.selected h
  | 8, _, h => exact Derives.primary h

theorem DerivesAt.weaken {n m : Nat} (h : DerivesAt n w e) (hn : n ≤ 9) (hm : m ≤ n) :
    DerivesAt m w e := by
  induction n with
  | zero => exact Nat.le_zero.1 hm ▸ h
  | succ n ih =>
    rcases Nat.lt_or_eq_of_le hm with less | rfl
    · exact ih (h.of_succ hn) (Nat.le_of_succ_le hn) (Nat.le_of_lt_succ less)
    · exact h

theorem DerivesAt.join {level : Level} {s : Sign} {op : Expr → Expr → Expr}
    (ho : Operator level s op) (he : DerivesAt level.strength w e)
    (hf : DerivesAt (level.strength + 1) v f) :
    DerivesAt level.strength (w ++ .sign s :: v) (op e f) := by
  cases level with
  | product => exact Derives.join ho he (.operand hf)
  | _ => exact Derives.join ho he hf

theorem Level.strength_lt (level : Level) : level.strength < 7 := by
  cases level <;> decide

theorem Expr.strength_le (e : Expr) : e.strength ≤ 9 := by
  cases e with
  | binary op _ _ | logical op _ _ =>
    exact Nat.le_of_lt (Nat.lt_trans op.level.strength_lt (by decide))
  | _ => exact Nat.le_of_ble_eq_true rfl

/-- The words of an expression derive it in every place, with the parentheses that the
place asks for. -/
theorem DerivesAt.inPlace (h : DerivesAt e.strength w e) (place : Nat) (hp : place ≤ 9) :
    DerivesAt place (inPlace place e.strength w) e := by
  unfold Rule.inPlace
  split
  · have whole : DerivesAt 0 w e := h.weaken e.strength_le (Nat.zero_le _)
    have parentheses : DerivesAt 9 (.sign .leftParen :: (w ++ [.sign .rightParen])) e :=
      Derives.paren whole
    exact parentheses.weaken (Nat.le_refl _) hp
  · exact h.weaken e.strength_le (Nat.not_lt.1 ‹_›)

end Strengths

theorem UnaryOp.prefixOperator (op : UnaryOp) : PrefixOperator op.sign op := by
  cases op <;> constructor

theorem BinaryOp.operator (op : BinaryOp) : Operator op.level op.sign (.binary op) := by
  cases op <;> constructor

theorem LogicalOp.operator (op : LogicalOp) : Operator op.level op.sign (.logical op) := by
  cases op <;> constructor

theorem derives_items {items : List (Item Expr)}
    (h : ∀ i ∈ items, Derives .expression i.value.words i.value) :
    Derives .items (itemsWords items) items := by
  induction items with
  | nil => exact .noItem
  | cons i rest ih =>
    obtain ⟨hi, hrest⟩ := List.forall_mem_cons.1 h
    have one : ∃ w, Derives .item w i ∧
        itemsWords (i :: rest) = w ++ behindComma (itemsWords rest) rest.isEmpty := by
      cases i with
      | one e => exact ⟨_, .one hi, by rw [itemsWords]; rfl⟩
      | spread e => exact ⟨_, .spread hi, by rw [itemsWords]; rfl⟩
    obtain ⟨w, hw, words⟩ := one
    rw [words]
    cases rest with
    | nil => exact (List.append_nil w).symm ▸ Derives.lastItem hw
    | cons j rest => exact .moreItems hw (ih hrest)

theorem derives_fields {fields : List (String × Expr)}
    (h : ∀ f ∈ fields, Derives .expression f.2.words f.2) :
    Derives .properties (fieldsWords fields) fields := by
  induction fields with
  | nil => exact .noProperty
  | cons f rest ih =>
    obtain ⟨key, e⟩ := f
    obtain ⟨he, hrest⟩ := List.forall_mem_cons.1 h
    have one : Derives .property (.string key :: .sign .colon :: e.words) (key, e) :=
      .keyed (.string key) he
    cases rest with
    | nil =>
      rw [fieldsWords]
      exact (List.append_nil e.words).symm ▸ Derives.lastProperty one
    | cons g rest =>
      rw [fieldsWords]
      exact .moreProperties one (ih hrest)

theorem lastOfEachName_of_nodup {fields : List (String × Expr)}
    (h : (fields.map Prod.fst).Nodup) : lastOfEachName fields = fields := by
  induction fields with
  | nil => rfl
  | cons f rest ih =>
    obtain ⟨absent, distinct⟩ := List.nodup_cons.1 h
    rw [lastOfEachName, if_neg absent, ih distinct]

theorem Expr.Normal.derivesAt {e : Expr} (h : e.Normal) : DerivesAt e.strength e.words e := by
  have whole {e : Expr} (h : DerivesAt e.strength e.words e) : Derives .expression e.words e :=
    h.weaken e.strength_le (Nat.zero_le _)
  induction h with
  | @literal v hv =>
    have derived : Derives .primary v.words (.literal v) := by
      cases v with
      | bool b => cases b <;> exact .literal (by constructor)
      | array | object => exact hv.elim
      | _ => exact .literal (by constructor)
    exact derived
  | @name n => exact Derives.name n
  | array _ ih => exact Derives.array (derives_items fun i hi => whole (ih i hi))
  | object distinct _ ih =>
    have derived := Derives.object (derives_fields fun f hf => whole (ih f hf))
    rw [lastOfEachName_of_nodup distinct] at derived
    exact derived
  | @unary op _ _ ih => exact Derives.prefixed op.prefixOperator (ih.inPlace 7 (by decide))
  | @binary op _ _ _ _ ihe ihf =>
    have small := op.level.strength_lt
    exact .join op.operator (ihe.inPlace _ (by omega)) (ihf.inPlace _ (by omega))
  | @logical op _ _ _ _ ihe ihf =>
    have small := op.level.strength_lt
    exact .join op.operator (ihe.inPlace _ (by omega)) (ihf.inPlace _ (by omega))
  | conditional _ _ _ ihc ihe ihf =>
    exact Derives.conditional (ihc.inPlace 1 (by decide)) (whole ihe) (whole ihf)
  | @call n _ _ _ ih => exact Derives.call n (derives_items fun i hi => whole (ih i hi))
  | @member _ n _ _ ih => exact Derives.member n (ih.inPlace 8 (by decide))
  | index _ _ ihe ihf => exact Derives.index (ihe.inPlace 8 (by decide)) (whole ihf)

theorem Expr.Normal.derives {e : Expr} (h : e.Normal) : Derives .expression e.words e :=
  h.derivesAt.weaken e.strength_le (Nat.zero_le _)

theorem Derives.assign_notMem {c : Category} {w : List Token} {x : c.Tree} (h : Derives c w x) :
    .sign .assign ∉ w := by
  induction h with
  | join ho _ _ _ _ => cases ho <;> simp_all
  | prefixed ho _ _ => cases ho <;> simp_all
  | literal hl => cases hl <;> simp
  | keyed hk _ _ => cases hk <;> simp_all
  | _ => simp_all

def Printable (w : List Token) : Prop := ∀ t ∈ w, t.Printable

section Printable
variable {w v : List Token}

@[simp] theorem printable_nil : Printable [] := List.forall_mem_nil _

@[simp] theorem printable_append : Printable (w ++ v) ↔ Printable w ∧ Printable v :=
  List.forall_mem_append

@[simp] theorem printable_sign (s : Sign) : Printable (.sign s :: w) ↔ Printable w :=
  List.forall_mem_cons.trans (and_iff_right trivial)

@[simp] theorem printable_keyword (k : Keyword) : Printable (.keyword k :: w) ↔ Printable w :=
  List.forall_mem_cons.trans (and_iff_right trivial)

@[simp] theorem printable_string (s : String) : Printable (.string s :: w) ↔ Printable w :=
  List.forall_mem_cons.trans (and_iff_right trivial)

@[simp] theorem printable_name (n : String) : Printable (.name n :: w) ↔ IsName n ∧ Printable w :=
  List.forall_mem_cons

@[simp] theorem printable_inPlace (place strength : Nat) :
    Printable (inPlace place strength w) ↔ Printable w := by
  unfold inPlace
  split <;> simp

theorem printable_behindComma (h : Printable w) (last : Bool) : Printable (behindComma w last) := by
  unfold behindComma
  split <;> simp [h]

end Printable

theorem printable_items {items : List (Item Expr)} (h : ∀ i ∈ items, Printable i.value.words) :
    Printable (itemsWords items) := by
  induction items with
  | nil => exact printable_nil
  | cons i rest ih =>
    obtain ⟨hi, hrest⟩ := List.forall_mem_cons.1 h
    have later := printable_behindComma (ih hrest) rest.isEmpty
    cases i with
    | one e =>
      have he : Printable e.words := hi
      simp [itemsWords, later, he]
    | spread e =>
      have he : Printable e.words := hi
      simp [itemsWords, later, he]

theorem printable_fields {fields : List (String × Expr)} (h : ∀ f ∈ fields, Printable f.2.words) :
    Printable (fieldsWords fields) := by
  induction fields with
  | nil => exact printable_nil
  | cons f rest ih =>
    obtain ⟨hf, hrest⟩ := List.forall_mem_cons.1 h
    have later := printable_behindComma (ih hrest) rest.isEmpty
    simpa [fieldsWords, later] using hf

theorem Value.IsLiteral.printable {v : Value} (h : v.IsLiteral) : Printable v.words := by
  cases v with
  | number x => exact List.forall_mem_singleton.2 h
  | bool b => cases b <;> exact List.forall_mem_singleton.2 trivial
  | array | object => exact h.elim
  | _ => exact List.forall_mem_singleton.2 trivial

theorem Expr.Normal.printable {e : Expr} (h : e.Normal) : Printable e.words := by
  induction h with
  | literal hv => exact hv.printable
  | name hn => simp [words, hn]
  | array _ ih => simp [words, printable_items ih]
  | object _ _ ih => simp [words, printable_fields ih]
  | unary _ ih => simp [words, ih]
  | binary _ _ ihe ihf | logical _ _ ihe ihf | index _ _ ihe ihf => simp [words, ihe, ihf]
  | conditional _ _ _ ihc ihe ihf => simp [words, ihc, ihe, ihf]
  | call hn _ ih => simp [words, hn, printable_items ih]
  | member _ hn ih => simp [words, hn, ih]

end ScoreSheet.Rule
