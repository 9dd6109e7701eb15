import ScoreSheet.Yaml.Lexer
import ScoreSheet.Yaml.Scalar
set_option autoImplicit false

namespace ScoreSheet.Yaml

/-- A node that has been read. Scalars keep their text, since a key is not resolved. -/
inductive Node where
  | plain (text : String)
  | quoted (text : String)
  | collection (v : Json)

namespace Node

def toJson : Node → Json
  | plain text => resolve text
  | quoted text => .string text
  | collection v => v

def textTags : List String := ["!!str", "!<tag:yaml.org,2002:str>"]

/-- The text tag makes a plain scalar a text. Other tags do not matter. -/
def withTag (tag : String) : Node → Node
  | plain text => if textTags.contains tag then quoted text else plain text
  | n => n

end Node

/-- The tokens still to be read, and the nodes that have been given a name, the last
one first. -/
structure Cursor where
  tokens : List Token
  named : List (String × Node)

namespace Cursor

def head (c : Cursor) : Token := c.tokens.headD .stop

def next (c : Cursor) : Cursor := { c with tokens := c.tokens.drop 1 }

def giveName (name : Option String) (n : Node) (c : Cursor) : Cursor :=
  match name with
  | some name => { c with named := (name, n) :: c.named }
  | none => c

def fault (c : Cursor) (e : Fault) : Fault :=
  match c.head with
  | .broken e => e
  | _ => e

end Cursor

abbrev Read (α : Type) := Cursor → Except Fault (α × Cursor)

/-- The members of a mapping, and those to be taken over from other mappings. -/
structure Members where
  own : List (String × Json)
  merged : List (String × Json)

inductive KeyUse where
  | member (key : String)
  | merge

namespace Members

def empty : Members := ⟨[], []⟩

def useOfText (m : Members) (key : String) : Except Fault KeyUse :=
  if m.own.any (·.1 == key) then .error (.repeatedKey key) else .ok (.member key)

def useOf (m : Members) : Node → Except Fault KeyUse
  | .plain text =>
    if isNullWord text then .error .nullKey
    else if text = "<<" then .ok .merge
    else m.useOfText text
  | .quoted text => m.useOfText text
  | .collection _ => .error .nestedKey

def offered : Json → Except Fault (List (String × Json))
  | .null => .ok []
  | .object members => .ok members
  | .array items =>
    items.foldlM (fun all v =>
      match v with
      | .object members => .ok (all ++ members)
      | _ => .error .notMergeable) []
  | _ => .error .notMergeable

def add (m : Members) (v : Json) : KeyUse → Except Fault Members
  | .member key => .ok { m with own := m.own ++ [(key, v)] }
  | .merge => (offered v).map fun members => { m with merged := m.merged ++ members }

/-- All members. Its own members come first and win, then the earlier ones. -/
def toJson (m : Members) : Json :=
  .object (m.merged.foldl (fun all (k, v) =>
    if all.any (·.1 == k) then all else all ++ [(k, v)]) m.own)

end Members

def endsLooseItem : Token → Bool
  | .item | .key | .value | .blockEnd => true
  | _ => false

def endsBracedKey : Token → Bool
  | .comma | .value | .listClose | .bracedClose => true
  | _ => false

/-- Where a node stands: between brackets, in a block, or behind the key of a block
mapping, where a sequence need not be indented. -/
inductive Place where
  | flow | block | member
deriving DecidableEq

def readProperties (c : Cursor) : (Option String × Option String) × Cursor :=
  match c.tokens with
  | .anchor name :: .tag tag :: rest => ((some name, some tag), { c with tokens := rest })
  | .tag tag :: .anchor name :: rest => ((some name, some tag), { c with tokens := rest })
  | .anchor name :: rest => ((some name, none), { c with tokens := rest })
  | .tag tag :: rest => ((none, some tag), { c with tokens := rest })
  | _ => ((none, none), c)

def absent : Node := .plain ""

mutual

def readNode : Nat → Place → Read Node
  | 0, _, c => .error (c.fault .missingContent)
  | fuel + 1, place, c =>
    match c.head with
    | .reference name =>
      match c.named.lookup name with
      | some n => .ok (n, c.next)
      | none => .error .unknownAnchor
    | _ => do
      let ((name, tag), c) := readProperties c
      let (n, c) ← readBare fuel place (name.isSome || tag.isSome) c
      let n := (tag.map (Node.withTag · n)).getD n
      .ok (n, c.giveName name n)

/-- Reads a node without properties. Only behind properties it may be missing. -/
def readBare : Nat → Place → Bool → Read Node
  | 0, _, _, c => .error (c.fault .missingContent)
  | fuel + 1, place, optional, c =>
    match c.head, place with
    | .plain text, _ => .ok (.plain text, c.next)
    | .quoted text, _ => .ok (.quoted text, c.next)
    | .listOpen, _ => readList fuel [] c.next
    | .bracedOpen, _ => readBraced fuel .empty c.next
    | .item, .member => readLoose fuel [] c
    | .sequenceStart, .block | .sequenceStart, .member => readSequence fuel [] c.next
    | .mappingStart, .block | .mappingStart, .member => readMapping fuel .empty c.next
    | .broken e, _ => .error e
    | _, _ => if optional then .ok (absent, c) else .error .missingContent

def readSequence : Nat → List Json → Read Node
  | 0, _, c => .error (c.fault .missingItem)
  | fuel + 1, items, c => do
    match c.head with
    | .blockEnd => .ok (.collection (.array items.reverse), c.next)
    | .item =>
      let (n, c) ←
        match c.next.head with
        | .item | .blockEnd => .ok (absent, c.next)
        | _ => readNode fuel .block c.next
      readSequence fuel (n.toJson :: items) c
    | _ => .error (c.fault .missingItem)

def readLoose : Nat → List Json → Read Node
  | 0, _, c => .error (c.fault .missingItem)
  | fuel + 1, items, c => do
    match c.head with
    | .item =>
      let (n, c) ←
        if endsLooseItem c.next.head then .ok (absent, c.next) else readNode fuel .block c.next
      readLoose fuel (n.toJson :: items) c
    | _ => .ok (.collection (.array items.reverse), c)

def readMapping : Nat → Members → Read Node
  | 0, _, c => .error (c.fault .missingKey)
  | fuel + 1, m, c => do
    match c.head with
    | .blockEnd => .ok (.collection m.toJson, c.next)
    | .key | .value =>
      let c := if c.head = .key then c.next else c
      let (k, c) ←
        match c.head with
        | .key | .value | .blockEnd => .ok (absent, c)
        | _ => readNode fuel .member c
      let use ← m.useOf k
      let (n, c) ← readMember fuel c
      readMapping fuel (← m.add n.toJson use) c
    | _ => .error (c.fault .missingKey)

def readMember : Nat → Read Node
  | 0, c => .error (c.fault .missingKey)
  | fuel + 1, c =>
    match c.head with
    | .value =>
      match c.next.head with
      | .key | .value | .blockEnd => .ok (absent, c.next)
      | _ => readNode fuel .member c.next
    | .broken e => .error e
    | _ => .ok (absent, c)

def readList : Nat → List Json → Read Node
  | 0, _, c => .error (c.fault .openList)
  | fuel + 1, items, c => do
    match c.head with
    | .listClose => .ok (.collection (.array items.reverse), c.next)
    | _ =>
      let (n, c) ←
        match c.head with
        | .key =>
          let (k, c) ← if endsBracedKey c.next.head then .ok (absent, c.next)
            else readNode fuel .flow c.next
          let use ← Members.empty.useOf k
          let (n, c) ← readBracedMember fuel c
          .ok (.collection (← Members.empty.add n.toJson use).toJson, c)
        | _ => readNode fuel .flow c
      match c.head with
      | .comma => readList fuel (n.toJson :: items) c.next
      | .listClose => .ok (.collection (.array (n.toJson :: items).reverse), c.next)
      | _ => .error (c.fault .openList)

def readBraced : Nat → Members → Read Node
  | 0, _, c => .error (c.fault .openMapping)
  | fuel + 1, m, c => do
    match c.head with
    | .bracedClose => .ok (.collection m.toJson, c.next)
    | _ =>
      let isMarked := c.head = .key || c.head = .value
      let c := if c.head = .key then c.next else c
      let (k, c) ← if isMarked && endsBracedKey c.head then .ok (absent, c) else readNode fuel .flow c
      let use ← m.useOf k
      let (n, c) ← if isMarked then readBracedMember fuel c else .ok (absent, c)
      let m ← m.add n.toJson use
      match c.head with
      | .comma => readBraced fuel m c.next
      | .bracedClose => .ok (.collection m.toJson, c.next)
      | _ => .error (c.fault .openMapping)

def readBracedMember : Nat → Read Node
  | 0, c => .error (c.fault .openMapping)
  | fuel + 1, c =>
    match c.head with
    | .value =>
      match c.next.head with
      | .comma | .listClose | .bracedClose => .ok (absent, c.next)
      | _ => readNode fuel .flow c.next
    | .broken e => .error e
    | _ => .ok (absent, c)

end

/-- Goes past the sign that may start a document. Directives need one. -/
def openDocument : List Token → Except Fault (List Token)
  | .documentStart :: rest => .ok rest
  | .directive :: rest =>
    match rest.dropWhile (· = .directive) with
    | .documentStart :: rest => .ok rest
    | .broken e :: _ => .error e
    | _ => .error .missingDocument
  | tokens => .ok tokens

/-- Checks that no further document follows. What else follows does not matter. -/
def closeDocument : List Token → Except Fault Unit
  | .broken e :: _ => .error e
  | .documentEnd :: rest =>
    match rest.dropWhile (· = .documentEnd) with
    | [] | .stop :: _ | .broken _ :: _ => .ok ()
    | _ => .error .manyDocuments
  | .documentStart :: _ | .directive :: _ => .error .manyDocuments
  | _ => .ok ()

def readRoot (tokens : List Token) : Except Fault (Json × List Token) :=
  match tokens with
  | [] | .stop :: _ | .documentEnd :: _ | .documentStart :: _ | .directive :: _ =>
    .ok (.null, tokens)
  | _ =>
    (readNode (3 * tokens.length + 3) .block ⟨tokens, []⟩).map fun (n, c) => (n.toJson, c.tokens)

def parse (text : String) : Except Fault Json := do
  let tokens ← openDocument ((tokenize text).dropWhile (· = .documentEnd))
  let (v, tokens) ← readRoot tokens
  closeDocument tokens
  .ok v

end ScoreSheet.Yaml
