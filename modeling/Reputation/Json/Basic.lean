/-!
JSON values. Fields keep their order and may repeat. Three values only arise by reading a text:
`unreadable` is well-formed but denotes no value, such as a number beyond all floats, `misnamed`
stands in a last, nameless field for all fields from the first one on whose name denotes no text,
and `broken` marks where a text stops being JSON, as the last item or in a last, nameless field.
-/
namespace Reputation

inductive Json where
  | null
  | bool (b : Bool)
  | int (n : Int)
  | float (x : Float)
  | text (s : String)
  | array (items : List Json)
  | object (fields : List (String × Json))
  | unreadable
  | misnamed
  | broken
deriving Inhabited

namespace Json

/-- Floats that are not finite have no JSON number. -/
def ofFloat (x : Float) : Json :=
  if x.isFinite then .float x else .null

def ofInt64 (n : Int64) : Json := int n.toInt

def ofOption {α : Type} (f : α → Json) : Option α → Json
  | none => .null
  | some a => f a

mutual

/-- Whether no part of the value is broken. -/
def isWellFormed : Json → Bool
  | broken => false
  | array items => allWellFormed items
  | object fields => fieldsWellFormed fields
  | _ => true

def allWellFormed : List Json → Bool
  | [] => true
  | v :: vs => v.isWellFormed && allWellFormed vs

def fieldsWellFormed : List (String × Json) → Bool
  | [] => true
  | (_, v) :: fs => v.isWellFormed && fieldsWellFormed fs

end

end Json
end Reputation
