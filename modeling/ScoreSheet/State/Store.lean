import ScoreSheet.Sheet.Basic
set_option autoImplicit false

/-! A store holds what has been filled in: at most one entry for an id, in the order
in which the ids first got one. Patches change entries and never remove them. -/
namespace ScoreSheet

/-- What is known about one element. No `disabled` means enabled. -/
structure Entry where
  id : String
  value : Option Datum
  disabled : Option Bool

instance : BEq Entry :=
  ⟨fun a b => a.id == b.id && a.value == b.value && a.disabled == b.disabled⟩

def Entry.isDisabled (e : Entry) : Bool := e.disabled.getD false

/-- A change of an entry. A missing field stays as it is; a present value may be
the one that clears. -/
structure Patch where
  value : Option (Option Datum)
  disabled : Option Bool

namespace Patch

def isEmpty (p : Patch) : Bool := p.value.isNone && p.disabled.isNone

/-- Whether the patch changes something that has no entry. -/
def hasContent (p : Patch) : Bool := p.value.join.isSome || p.disabled.isSome

def create (p : Patch) (id : String) : Entry := ⟨id, p.value.join, p.disabled⟩

def changesValue (p : Patch) (e : Entry) : Bool :=
  match p.value with
  | some v => !(e.value == v)
  | none => false

def changesDisabled (p : Patch) (e : Entry) : Bool :=
  match p.disabled with
  | some d => !(e.disabled == some d)
  | none => false

def changes (p : Patch) (e : Entry) : Bool := p.changesValue e || p.changesDisabled e

/-- The entry with the provided fields that differ. -/
def update (p : Patch) (e : Entry) : Entry :=
  { id := e.id
    value := if p.changesValue e then p.value.join else e.value
    disabled := if p.changesDisabled e then p.disabled else e.disabled }

end Patch

structure Store where
  entries : List Entry

namespace Store

def empty : Store := ⟨[]⟩

def putEntry (e : Entry) : List Entry → List Entry
  | [] => [e]
  | f :: fs => if f.id = e.id then e :: fs else f :: putEntry e fs

/-- The store of a saved list; a later entry replaces an earlier one of its id. -/
def ofEntries (entries : List Entry) : Store :=
  ⟨entries.foldl (fun es e => putEntry e es) []⟩

def get? (s : Store) (id : String) : Option Entry := s.entries.find? (·.id == id)

def value? (s : Store) (id : String) : Option Datum := (s.get? id).bind (·.value)

def isDisabled (s : Store) (id : String) : Bool := ((s.get? id).map Entry.isDisabled).getD false

def patchEntries (id : String) (p : Patch) : List Entry → List Entry × Bool
  | [] => if p.hasContent then ([p.create id], true) else ([], false)
  | e :: es =>
    if e.id = id then (p.update e :: es, p.changes e)
    else
      let (es, changed) := patchEntries id p es
      (e :: es, changed)

/-- Applies a patch to the entry of `id` and says whether anything changed. Only a
patch with content makes a new entry. -/
def apply (s : Store) (id : String) (p : Patch) : Store × Bool :=
  let (entries, changed) := patchEntries id p s.entries
  (⟨entries⟩, changed)

def setValue (s : Store) (id : String) (v : Option Datum) : Store × Bool :=
  if v.isNone && (s.value? id).isNone then (s, false) else s.apply id ⟨some v, none⟩

end Store

end ScoreSheet
