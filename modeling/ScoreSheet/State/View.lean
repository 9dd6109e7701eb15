import ScoreSheet.Rule.Value
import ScoreSheet.State.Store
set_option autoImplicit false

namespace ScoreSheet

structure View where
  id : String
  kind : ElementKind
  value : Option Datum
  disabled : Bool

def Datum.toValue : Datum → Rule.Value
  | bool b => .bool b
  | number x => .number x
  | text s => .string s

namespace View

def ofElement (store : Store) (e : Element) : View :=
  ⟨e.id, e.kind, store.value? e.id, store.isDisabled e.id⟩

def toValue (v : View) : Rule.Value :=
  .object
    [("disabled", .bool v.disabled),
     ("id", .string v.id),
     ("type", .string v.kind.name),
     ("value", (v.value.map Datum.toValue).getD .undefined)]

end View

def views (elements : List Element) (store : Store) : List View :=
  elements.map (View.ofElement store)

end ScoreSheet
