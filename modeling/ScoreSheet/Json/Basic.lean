set_option autoImplicit false

/-! Whole numbers that fit 64 bits are kept apart from all other numbers. Objects keep
the order of their members; a repeated key keeps its first place and its last value. -/
namespace ScoreSheet

inductive Json where
  | null
  | bool (b : Bool)
  | integer (n : Int)
  | real (x : Float)
  | string (s : String)
  | array (items : List Json)
  | object (members : List (String × Json))
deriving Inhabited

namespace Json

/-- Sets the member `key`: in its place if there is one, else behind all others. -/
def setMember (key : String) (v : Json) : List (String × Json) → List (String × Json)
  | [] => [(key, v)]
  | (k, w) :: rest => if k = key then (k, v) :: rest else (k, w) :: setMember key v rest

def member? (v : Json) (key : String) : Option Json :=
  match v with
  | object members => members.lookup key
  | _ => none

end Json

end ScoreSheet
