import ScoreSheet.Keyed
import ScoreSheet.State.Store
set_option autoImplicit false

/-! A store with an index from ids to places beside its entries, so that no entry has to be
searched for. Each operation keeps the two parts up by itself. -/
namespace ScoreSheet

structure IndexedStore where
  entries : List Entry
  index : Keyed Nat

namespace IndexedStore

def empty : IndexedStore := ⟨[], []⟩

def place? (s : IndexedStore) (id : String) : Option Nat := Keyed.get? s.index id

def get? (s : IndexedStore) (id : String) : Option Entry :=
  (s.place? id).bind fun i => s.entries[i]?

def value? (s : IndexedStore) (id : String) : Option Datum := (s.get? id).bind (·.value)

def isDisabled (s : IndexedStore) (id : String) : Bool :=
  ((s.get? id).map Entry.isDisabled).getD false

def append (s : IndexedStore) (e : Entry) : IndexedStore :=
  ⟨s.entries ++ [e], Keyed.insert e.id s.entries.length s.index⟩

def replace (s : IndexedStore) (i : Nat) (e : Entry) : IndexedStore :=
  ⟨s.entries.set i e, s.index⟩

def putEntry (s : IndexedStore) (e : Entry) : IndexedStore :=
  match s.place? e.id with
  | some i => s.replace i e
  | none => s.append e

def ofEntries (entries : List Entry) : IndexedStore := entries.foldl putEntry empty

def apply (s : IndexedStore) (id : String) (p : Patch) : IndexedStore × Bool :=
  match s.place? id with
  | none => if p.hasContent then (s.append (p.create id), true) else (s, false)
  | some i =>
    match s.entries[i]? with
    | some e => (s.replace i (p.update e), p.changes e)
    | none => (s, false)

def setValue (s : IndexedStore) (id : String) (v : Option Datum) : IndexedStore × Bool :=
  if v.isNone && (s.value? id).isNone then (s, false) else s.apply id ⟨some v, none⟩

end IndexedStore

end ScoreSheet
