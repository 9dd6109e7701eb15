import ScoreSheet.Json.Numeral
import ScoreSheet.Text.Code
set_option autoImplicit false

/-! A document is one value between blanks. An error has the line and, counted in bytes of the
encoded text, the column behind the byte at which reading stopped. -/
namespace ScoreSheet.Json

/-- How far a text has been read: the line, from one, and the bytes of that line. -/
structure Position where
  line : Nat
  column : Nat
deriving DecidableEq

namespace Position

def advanceByte (p : Position) (c : Char) : Position :=
  if c = '\n' then ⟨p.line + 1, 0⟩ else ⟨p.line, p.column + 1⟩

def advance (p : Position) (c : Char) : Position :=
  if c = '\n' then ⟨p.line + 1, 0⟩ else ⟨p.line, p.column + c.utf8Size⟩

def advanceAll (p : Position) (cs : List Char) : Position := cs.foldl advance p

def advanceBytes (p : Position) : Nat → List Char → Position
  | _, [] => p
  | n, c :: cs =>
    if c.utf8Size ≤ n then (p.advance c).advanceBytes (n - c.utf8Size) cs
    else ⟨p.line, p.column + n⟩

end Position

inductive SyntaxFault where
  | endOfValue | endOfList | endOfObject | endOfString
  | expectedValue | expectedWord | expectedColon | expectedListEnd | expectedObjectEnd
  | keyNotString | trailingComma | trailingCharacters
  | invalidNumber | numberOutOfRange
  | invalidEscape | brokenPair | loneSurrogate | controlCharacter
  | nestedTooDeep
deriving DecidableEq

def SyntaxFault.message : SyntaxFault → String
  | endOfValue => "EOF while parsing a value"
  | endOfList => "EOF while parsing a list"
  | endOfObject => "EOF while parsing an object"
  | endOfString => "EOF while parsing a string"
  | expectedValue => "expected value"
  | expectedWord => "expected ident"
  | expectedColon => "expected `:`"
  | expectedListEnd => "expected `,` or `]`"
  | expectedObjectEnd => "expected `,` or `\x7d`"
  | keyNotString => "key must be a string"
  | trailingComma => "trailing comma"
  | trailingCharacters => "trailing characters"
  | invalidNumber => "invalid number"
  | numberOutOfRange => "number out of range"
  | invalidEscape => "invalid escape"
  | brokenPair => "unexpected end of hex escape"
  | loneSurrogate => "lone leading surrogate in hex escape"
  | controlCharacter => "control character (\\u0000-\\u001F) found while parsing a string"
  | nestedTooDeep => "recursion limit exceeded"

structure SyntaxError where
  fault : SyntaxFault
  position : Position
deriving DecidableEq

def SyntaxError.message (e : SyntaxError) : String :=
  s!"{e.fault.message} at line {e.position.line} column {e.position.column}"

structure Cursor where
  rest : List Char
  position : Position

abbrev Read (α : Type) := Cursor → Except SyntaxError (α × Cursor)

namespace Cursor

def start (text : String) : Cursor := ⟨text.toList, ⟨1, 0⟩⟩

def fail {α : Type} (c : Cursor) (fault : SyntaxFault) : Except SyntaxError α :=
  .error ⟨fault, c.position⟩

def failNext {α : Type} (c : Cursor) (fault : SyntaxFault) : Except SyntaxError α :=
  match c.rest with
  | [] => .error ⟨fault, c.position⟩
  | x :: _ => .error ⟨fault, c.position.advanceByte x⟩

def failAtEnd {α : Type} (c : Cursor) (fault : SyntaxFault) : Except SyntaxError α :=
  .error ⟨fault, c.position.advanceAll c.rest⟩

def drop (c : Cursor) (n : Nat) : Cursor :=
  ⟨c.rest.drop n, c.position.advanceAll (c.rest.take n)⟩

end Cursor

def isSpace (c : Char) : Bool := c = ' ' || c = '\n' || c = '\t' || c = '\r'

def skipSpaceFrom (p : Position) : List Char → Cursor
  | [] => ⟨[], p⟩
  | c :: cs => if isSpace c then skipSpaceFrom (p.advance c) cs else ⟨c :: cs, p⟩

def skipSpace (c : Cursor) : Cursor := skipSpaceFrom c.position c.rest

def hexEscape : Read Nat := fun c =>
  if (String.ofList c.rest).utf8ByteSize < 4 then c.failAtEnd .endOfString
  else
    match Text.hexNumber? (c.rest.take 4) with
    | some n => .ok (n, c.drop 4)
    | none => .error ⟨.invalidEscape, c.position.advanceBytes 4 c.rest⟩

def pairSign (x : Char) (c : Cursor) : Except SyntaxError Cursor :=
  match c.rest with
  | [] => c.fail .endOfString
  | y :: _ => if y = x then .ok (c.drop 1) else c.failNext .brokenPair

def isLowSurrogate (n : Nat) : Bool := 0xDC00 ≤ n && n ≤ 0xDFFF

def isHighSurrogate (n : Nat) : Bool := 0xD800 ≤ n && n ≤ 0xDBFF

def unicodeEscape : Read Char := fun c => do
  let (n, c) ← hexEscape c
  if isLowSurrogate n then c.fail .loneSurrogate
  else if isHighSurrogate n then
    let c ← pairSign '\\' c
    let c ← pairSign 'u' c
    let (m, c) ← hexEscape c
    if isLowSurrogate m then
      .ok (Char.ofNat ((n - 0xD800) * 0x400 + (m - 0xDC00) + 0x10000), c)
    else c.fail .loneSurrogate
  else .ok (Char.ofNat n, c)

def unescape? (c : Char) : Option Char :=
  if c = '"' then some '"'
  else if c = '\\' then some '\\'
  else if c = '/' then some '/'
  else if c = 'b' then some '\x08'
  else if c = 'f' then some '\x0c'
  else if c = 'n' then some '\n'
  else if c = 'r' then some '\r'
  else if c = 't' then some '\t'
  else none

def escape : Read Char := fun c =>
  match c.rest with
  | [] => c.fail .endOfString
  | x :: _ =>
    if x = 'u' then unicodeEscape (c.drop 1)
    else
      match unescape? x with
      | some y => .ok (y, c.drop 1)
      | none => c.failNext .invalidEscape

/-- Reads the characters of a string and its closing quote. Every character takes
one of the text, whose length therefore suffices as fuel. -/
def stringBody : Nat → Read (List Char)
  | 0, c => c.fail .endOfString
  | fuel + 1, c =>
    match c.rest with
    | [] => c.fail .endOfString
    | x :: _ =>
      if x = '"' then .ok ([], c.drop 1)
      else if x = '\\' then do
        let (y, c) ← escape (c.drop 1)
        let (ys, c) ← stringBody fuel c
        .ok (y :: ys, c)
      else if x.toNat < 0x20 then c.failNext .controlCharacter
      else do
        let (ys, c) ← stringBody fuel (c.drop 1)
        .ok (x :: ys, c)

def stringText : Read String := fun c => do
  let (cs, c) ← stringBody (c.rest.length + 1) c
  .ok (.ofList cs, c)

def digits (c : Cursor) : List Char := c.rest.takeWhile Number.isDigit

def realNumber (negative : Bool) (significand : Nat) (exponent : Int) : Read Json := fun c =>
  match realOfParts? negative significand exponent with
  | some v => .ok (v, c)
  | none => c.fail .numberOutOfRange

/-- The number of leading digits whose value is at most `2 ^ 31 - 1`. -/
def exponentDigits (n : Nat) : List Char → Nat
  | [] => 0
  | c :: cs =>
    let n := n * 10 + Number.digitValue c
    if n < Nat.pow 2 31 then exponentDigits n cs + 1 else 0

/-- Reads the exponent behind its mark. One that does not fit 31 bits makes zero of
a small number or a zero, and no number of any other. -/
def exponentPart (negative : Bool) (significand : Nat) (shift : Int) : Read Json := fun c =>
  let signed := c.rest.head? = some '+' ∨ c.rest.head? = some '-'
  let minus := c.rest.head? = some '-'
  let c := if signed then c.drop 1 else c
  let ds := digits c
  let fitting := exponentDigits 0 ds
  if c.rest.isEmpty then c.fail .endOfValue
  else if ds.isEmpty then c.failNext .invalidNumber
  else if fitting < ds.length then
    if significand ≠ 0 ∧ ¬ minus then (c.drop (fitting + 1)).fail .numberOutOfRange
    else .ok (.real (if negative then -0.0 else 0.0), c.drop ds.length)
  else
    let e : Int := Number.ofDigits ds
    realNumber negative significand (if minus then shift - e else shift + e) (c.drop ds.length)

def exponentOrEnd (negative : Bool) (significand : Nat) (shift : Int) : Read Json := fun c =>
  if c.rest.head? = some 'e' ∨ c.rest.head? = some 'E' then
    exponentPart negative significand shift (c.drop 1)
  else realNumber negative significand shift c

/-- Reads the fraction behind the point. Digits that no longer fit are dropped. -/
def fractionPart (negative : Bool) (significand : Nat) (shift : Int) : Read Json := fun c =>
  let ds := digits c
  if ds.isEmpty then
    if c.rest.isEmpty then c.fail .endOfValue else c.failNext .invalidNumber
  else
    let (significand, dropped) := absorb significand ds
    exponentOrEnd negative significand (shift - (ds.length - dropped.length : Nat))
      (c.drop ds.length)

def number (negative : Bool) : Read Json := fun c =>
  let ds := digits c
  if c.rest.isEmpty then c.fail .endOfValue
  else if ds.isEmpty then c.failNext .invalidNumber
  else if ds.head? = some '0' ∧ 1 < ds.length then (c.drop 1).failNext .invalidNumber
  else
    let (significand, excess) := absorb 0 ds
    let c := c.drop ds.length
    if c.rest.head? = some '.' then fractionPart negative significand excess.length (c.drop 1)
    else if c.rest.head? = some 'e' ∨ c.rest.head? = some 'E' then
      exponentPart negative significand excess.length (c.drop 1)
    else if excess.isEmpty then .ok (wholeNumber negative significand, c)
    else realNumber negative significand excess.length c

def word (v : Json) : List Char → Read Json
  | [], c => .ok (v, c)
  | x :: xs, c =>
    match c.rest with
    | [] => c.fail .endOfValue
    | y :: _ => if y = x then word v xs (c.drop 1) else c.failNext .expectedWord

def nextItem (isFirst : Bool) (c : Cursor) : Except SyntaxError (Option Cursor) :=
  let c := skipSpace c
  match c.rest with
  | [] => c.fail .endOfList
  | x :: _ =>
    if x = ']' then .ok none
    else if isFirst then .ok (some c)
    else if x = ',' then
      let c := skipSpace (c.drop 1)
      match c.rest with
      | [] => c.fail .endOfValue
      | y :: _ => if y = ']' then c.failNext .trailingComma else .ok (some c)
    else c.failNext .expectedListEnd

def listItems (value : Read Json) : Nat → Bool → Read (List Json)
  | 0, _, c => c.fail .endOfList
  | fuel + 1, isFirst, c => do
    match ← nextItem isFirst c with
    | none => .ok ([], (skipSpace c).drop 1)
    | some c =>
      let (v, c) ← value c
      let (vs, c) ← listItems value fuel false c
      .ok (v :: vs, c)

def nextKey (isFirst : Bool) (c : Cursor) : Except SyntaxError (Option Cursor) :=
  let c := skipSpace c
  match c.rest with
  | [] => c.fail .endOfObject
  | x :: _ =>
    if x = '\x7d' then .ok none
    else if isFirst then
      if x = '"' then .ok (some (c.drop 1)) else c.failNext .keyNotString
    else if x = ',' then
      let c := skipSpace (c.drop 1)
      match c.rest with
      | [] => c.fail .endOfValue
      | y :: _ =>
        if y = '"' then .ok (some (c.drop 1))
        else if y = '\x7d' then c.failNext .trailingComma
        else c.failNext .keyNotString
    else c.failNext .expectedObjectEnd

def colon (c : Cursor) : Except SyntaxError Cursor :=
  let c := skipSpace c
  match c.rest with
  | [] => c.fail .endOfObject
  | x :: _ => if x = ':' then .ok (c.drop 1) else c.failNext .expectedColon

def objectMembers (value : Read Json) :
    Nat → Bool → List (String × Json) → Read (List (String × Json))
  | 0, _, _, c => c.fail .endOfObject
  | fuel + 1, isFirst, members, c => do
    match ← nextKey isFirst c with
    | none => .ok (members, (skipSpace c).drop 1)
    | some c =>
      let (key, c) ← stringText c
      let c ← colon c
      let (v, c) ← value c
      objectMembers value fuel false (setMember key v members) c

/-- Reads a value; `inner?` reads the values inside a list or an object, if there
may be one here. -/
def valueWith (inner? : Option (Read Json)) : Read Json := fun c =>
  let c := skipSpace c
  match c.rest with
  | [] => c.fail .endOfValue
  | x :: _ =>
    if x = 'n' then word .null ['u', 'l', 'l'] (c.drop 1)
    else if x = 't' then word (.bool true) ['r', 'u', 'e'] (c.drop 1)
    else if x = 'f' then word (.bool false) ['a', 'l', 's', 'e'] (c.drop 1)
    else if x = '-' then number true (c.drop 1)
    else if Number.isDigit x then number false c
    else if x = '"' then (stringText (c.drop 1)).map fun (s, c) => (.string s, c)
    else if x = '[' then
      match inner? with
      | none => c.failNext .nestedTooDeep
      | some inner =>
        (listItems inner (c.rest.length + 1) true (c.drop 1)).map fun (vs, c) => (.array vs, c)
    else if x = '\x7b' then
      match inner? with
      | none => c.failNext .nestedTooDeep
      | some inner =>
        (objectMembers inner (c.rest.length + 1) true [] (c.drop 1)).map fun (ms, c) =>
          (.object ms, c)
    else c.failNext .expectedValue

/-- Reads a value in which lists and objects nest at most `room` deep. -/
def value : Nat → Read Json
  | 0 => valueWith none
  | room + 1 => valueWith (some (value room))

def nestingLimit : Nat := 127

def parse (text : String) : Except SyntaxError Json := do
  let (v, c) ← value nestingLimit (.start text)
  let c := skipSpace c
  if c.rest.isEmpty then .ok v else c.failNext .trailingCharacters

end ScoreSheet.Json
