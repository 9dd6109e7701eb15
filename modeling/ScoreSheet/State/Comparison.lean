import ScoreSheet.State.Store
set_option autoImplicit false

namespace ScoreSheet

/-- Whether two entries show different values or a different effective `disabled`. -/
def Entry.differ (a b : Entry) : Bool :=
  !(a.value == b.value) || a.isDisabled != b.isDisabled

/-- Whether two state lists would be shown or saved differently. The last entry of
an id counts. -/
def statesDiffer (a b : List Entry) : Bool :=
  let a := Store.ofEntries a
  let b := Store.ofEntries b
  a.entries.length != b.entries.length ||
    a.entries.any fun e =>
      match b.get? e.id with
      | none => true
      | some f => e.differ f

/-- Whether a value is worth saving: not an empty text and not an empty checkbox. -/
def Datum.isKept : Datum → Bool
  | .text s => !s.isEmpty
  | .number _ => true
  | .bool b => b

def Entry.prune? (e : Entry) : Option Entry :=
  let value := e.value.filter Datum.isKept
  let disabled := e.disabled.filter (· == true)
  if value.isNone && disabled.isNone then none else some ⟨e.id, value, disabled⟩

def prune (entries : List Entry) : List Entry := entries.filterMap Entry.prune?

end ScoreSheet
