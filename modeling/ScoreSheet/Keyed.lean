set_option autoImplicit false

/-! A list of named entries in ascending order of the names, each name once. `insert`
keeps that order, so two such lists with the same entries are the same list. -/
namespace ScoreSheet

abbrev Keyed (α : Type) := List (String × α)

namespace Keyed

variable {α : Type}

def insert (name : String) (x : α) : Keyed α → Keyed α
  | [] => [(name, x)]
  | (n, y) :: rest =>
    if name = n then (n, x) :: rest
    else if name < n then (name, x) :: (n, y) :: rest
    else (n, y) :: insert name x rest

def get? (entries : Keyed α) (name : String) : Option α := entries.lookup name

/-- The entries of a list in ascending order; the last one of a name counts. -/
def ofList (entries : List (String × α)) : Keyed α :=
  entries.foldl (fun sorted e => insert e.1 e.2 sorted) []

end Keyed

end ScoreSheet
