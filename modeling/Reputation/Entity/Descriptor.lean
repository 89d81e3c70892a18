import Reputation.Entity.Label
/-!
What a query asks about: a name as it stands, one address, or a network. Addresses are compared
with ranges as single points.
-/
namespace Reputation

inductive Descriptor where
  | name (s : String)
  | address (a : Ip)
  | network (n : Network)
deriving DecidableEq

namespace Descriptor

/-- Trims first. A text with an address before a slash has to be a network. -/
def parse (s : String) : Except Error Descriptor :=
  let s := Text.trim s
  if s.isEmpty then .error (.invalidEntity (.label s))
  else match Ip.parse? s with
    | some a => .ok (address a)
    | none => match Network.parse? s with
      | some n => n.map network
      | none => .ok (name s)

def label : Descriptor → String
  | name s => s
  | address a => a.text
  | network n => n.text

def range? : Descriptor → Option AddressRange
  | name _ => none
  | address a => some (.point (.ofIp a))
  | network n => n.range?

end Descriptor
end Reputation
