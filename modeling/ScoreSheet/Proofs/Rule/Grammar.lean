import ScoreSheet.Rule.Parser
set_option autoImplicit false

/-! The token sequences that are expressions, and their trees. The categories are layered: each
level of binary operators is built from operands of the next one and associates to the
left, selectors follow what they select from, and prefix operators and conditionals nest to
the right. -/
namespace ScoreSheet.Rule

inductive Operator : Level → Sign → (Expr → Expr → Expr) → Prop where
  | or : Operator .alternative .orOr (.logical .or)
  | coalesce : Operator .alternative .questionQuestion (.logical .coalesce)
  | and : Operator .conjunction .andAnd (.logical .and)
  | equal : Operator .equality .equal (.binary .equal)
  | notEqual : Operator .equality .notEqual (.binary .notEqual)
  | identical : Operator .equality .identical (.binary .identical)
  | notIdentical : Operator .equality .notIdentical (.binary .notIdentical)
  | less : Operator .comparison .less (.binary .less)
  | lessEqual : Operator .comparison .lessEqual (.binary .lessEqual)
  | greater : Operator .comparison .greater (.binary .greater)
  | greaterEqual : Operator .comparison .greaterEqual (.binary .greaterEqual)
  | add : Operator .sum .plus (.binary .add)
  | subtract : Operator .sum .minus (.binary .subtract)
  | multiply : Operator .product .star (.binary .multiply)
  | divide : Operator .product .slash (.binary .divide)
  | remainder : Operator .product .percent (.binary .remainder)

inductive PrefixOperator : Sign → UnaryOp → Prop where
  | not : PrefixOperator .bang .not
  | negate : PrefixOperator .minus .negate
  | plus : PrefixOperator .plus .plus

inductive Literal : Token → Value → Prop where
  | number (x : Float) : Literal (.number x) (.number x)
  | string (s : String) : Literal (.string s) (.string s)
  | true : Literal (.keyword .true) (.bool Bool.true)
  | false : Literal (.keyword .false) (.bool Bool.false)
  | null : Literal (.keyword .null) .null
  | undefined : Literal (.keyword .undefined) .undefined

inductive PropertyKey : Token → String → Prop where
  | name (n : String) : PropertyKey (.name n) n
  | string (s : String) : PropertyKey (.string s) s
  | number (x : Float) : PropertyKey (.number x) (Number.display x)

/-- The properties that no later one has the name of. -/
def lastOfEachName : List (String × Expr) → List (String × Expr)
  | [] => []
  | f :: later =>
    if f.1 ∈ later.map Prod.fst then lastOfEachName later else f :: lastOfEachName later

inductive Category where
  | expression
  | operation (levels : List Level)
  | prefixed
  | selected
  | primary
  | item
  | items
  | property
  | properties

/-- What the words of a category stand for. -/
abbrev Category.Tree : Category → Type
  | .item => Item Expr
  | .items => List (Item Expr)
  | .property => String × Expr
  | .properties => List (String × Expr)
  | _ => Expr

inductive Derives : (c : Category) → List Token → c.Tree → Prop where
  | operation {w : List Token} {e : Expr} (h : Derives (.operation Level.all) w e) :
      Derives .expression w e
  | conditional {w y n : List Token} {c e f : Expr}
      (hc : Derives (.operation Level.all) w c) (he : Derives .expression y e)
      (hf : Derives .expression n f) :
      Derives .expression (w ++ .sign .question :: (y ++ .sign .colon :: n))
        (.conditional c e f)
  | join {level : Level} {levels : List Level} {s : Sign} {op : Expr → Expr → Expr}
      {w v : List Token} {e f : Expr} (ho : Operator level s op)
      (he : Derives (.operation (level :: levels)) w e)
      (hf : Derives (.operation levels) v f) :
      Derives (.operation (level :: levels)) (w ++ .sign s :: v) (op e f)
  | tighter {level : Level} {levels : List Level} {w : List Token} {e : Expr}
      (h : Derives (.operation levels) w e) : Derives (.operation (level :: levels)) w e
  | operand {w : List Token} {e : Expr} (h : Derives .prefixed w e) :
      Derives (.operation []) w e
  | prefixed {s : Sign} {op : UnaryOp} {w : List Token} {e : Expr} (ho : PrefixOperator s op)
      (h : Derives .prefixed w e) : Derives .prefixed (.sign s :: w) (.unary op e)
  | selected {w : List Token} {e : Expr} (h : Derives .selected w e) : Derives .prefixed w e
  | member {w : List Token} {e : Expr} (n : String) (h : Derives .selected w e) :
      Derives .selected (w ++ [.sign .dot, .name n]) (.member e n)
  | index {w v : List Token} {e f : Expr} (he : Derives .selected w e)
      (hf : Derives .expression v f) :
      Derives .selected (w ++ .sign .leftBracket :: (v ++ [.sign .rightBracket])) (.index e f)
  | primary {w : List Token} {e : Expr} (h : Derives .primary w e) : Derives .selected w e
  | literal {t : Token} {v : Value} (h : Literal t v) : Derives .primary [t] (.literal v)
  | name (n : String) : Derives .primary [.name n] (.name n)
  | paren {w : List Token} {e : Expr} (h : Derives .expression w e) :
      Derives .primary (.sign .leftParen :: (w ++ [.sign .rightParen])) e
  | call {w : List Token} (n : String) {arguments : List (Item Expr)}
      (h : Derives .items w arguments) :
      Derives .primary (.name n :: .sign .leftParen :: (w ++ [.sign .rightParen]))
        (.call n arguments)
  | array {w : List Token} {elements : List (Item Expr)} (h : Derives .items w elements) :
      Derives .primary (.sign .leftBracket :: (w ++ [.sign .rightBracket])) (.array elements)
  | object {w : List Token} {fields : List (String × Expr)} (h : Derives .properties w fields) :
      Derives .primary (.sign .leftBrace :: (w ++ [.sign .rightBrace]))
        (.object (lastOfEachName fields))
  | one {w : List Token} {e : Expr} (h : Derives .expression w e) : Derives .item w (.one e)
  | spread {w : List Token} {e : Expr} (h : Derives .expression w e) :
      Derives .item (.sign .ellipsis :: w) (.spread e)
  | noItem : Derives .items [] []
  | lastItem {w : List Token} {i : Item Expr} (h : Derives .item w i) : Derives .items w [i]
  | moreItems {w v : List Token} {i : Item Expr} {rest : List (Item Expr)}
      (hi : Derives .item w i) (hr : Derives .items v rest) :
      Derives .items (w ++ .sign .comma :: v) (i :: rest)
  | keyed {t : Token} {n : String} {w : List Token} {e : Expr} (hk : PropertyKey t n)
      (h : Derives .expression w e) : Derives .property (t :: .sign .colon :: w) (n, e)
  | shorthand (n : String) : Derives .property [.name n] (n, .name n)
  | noProperty : Derives .properties [] []
  | lastProperty {w : List Token} {f : String × Expr} (h : Derives .property w f) :
      Derives .properties w [f]
  | moreProperties {w v : List Token} {f : String × Expr} {rest : List (String × Expr)}
      (hf : Derives .property w f) (hr : Derives .properties v rest) :
      Derives .properties (w ++ .sign .comma :: v) (f :: rest)

theorem Level.operation?_eq_some {level : Level} {s : Sign} {op : Expr → Expr → Expr} :
    level.operation? s = some op ↔ Operator level s op := by
  constructor
  · intro h
    unfold Level.operation? at h
    split at h <;> cases h <;> constructor
  · rintro (_ | _) <;> rfl

theorem Level.operationAt?_eq_some {level : Level} {ts : Tokens} {op : Expr → Expr → Expr} :
    level.operationAt? ts = some op ↔ ∃ s, peek ts = .sign s ∧ Operator level s op := by
  unfold Level.operationAt?
  constructor
  · intro h
    split at h
    · exact ⟨_, ‹_›, Level.operation?_eq_some.1 h⟩
    · cases h
  · rintro ⟨s, hp, ho⟩
    rw [hp]
    exact Level.operation?_eq_some.2 ho

theorem prefixOperator?_eq_some {t : Token} {op : UnaryOp} :
    prefixOperator? t = some op ↔ ∃ s, t = .sign s ∧ PrefixOperator s op := by
  constructor
  · intro h
    unfold prefixOperator? at h
    split at h <;> cases h <;> exact ⟨_, rfl, by constructor⟩
  · rintro ⟨s, rfl, _ | _⟩ <;> rfl

theorem mem_lastOfEachName {n : String} (fields : List (String × Expr)) :
    n ∈ (lastOfEachName fields).map Prod.fst ↔ n ∈ fields.map Prod.fst := by
  induction fields with
  | nil => rfl
  | cons f later ih =>
    rw [lastOfEachName, List.map_cons, List.mem_cons]
    split
    · rename_i hf
      rw [ih, iff_or_self]
      rintro rfl
      exact hf
    · rw [List.map_cons, List.mem_cons, ih]

theorem withProperty_lastOfEachName (n : String) (e : Expr) (later : List (String × Expr)) :
    withProperty n e (lastOfEachName later) = lastOfEachName ((n, e) :: later) := by
  have named : (lastOfEachName later).any (·.1 == n) = true ↔ n ∈ later.map Prod.fst := by
    rw [← mem_lastOfEachName, List.any_eq_true, List.mem_map]
    simp only [beq_iff_eq]
  rw [withProperty, lastOfEachName]
  simp only [named]

end ScoreSheet.Rule
