import Reputation.Entity.Descriptor
import Reputation.Json.Decode
/-!
The JSON form of query descriptors: the kind of descriptor and a value whose form depends on it.
The value may come before the kind.
-/
namespace Reputation

open Json

/-- A text that an address has. -/
def Ip.ofJson : Reading Ip := asParsed Ip.parse?

namespace Network

def toJson (n : Network) : Json :=
  .object [("addr", .text n.address.text), ("prefix", .int n.length)]

/-- The length fits a byte, but need not fit the address. A list of the two is not a network. -/
def ofJson : Reading Network := fun v => do
  let fs ← Fields.readObject [.of "addr" Ip.ofJson, .of "prefix" (asNat 255)] v
  return ⟨← fs.required "addr" Ip.ofJson, ← fs.required "prefix" (asNat 255)⟩

end Network

namespace Descriptor

def kind : Descriptor → String
  | name _ => "name"
  | address _ => "address"
  | network _ => "network"

def toJson (d : Descriptor) : Json :=
  .object [("kind", .text d.kind), ("value", match d with
    | name s => .text s
    | address a => .text a.text
    | network n => n.toJson)]

/-- A kind is a text, or an object with that text as its only name and null as the value. -/
def kindOfJson : Reading String
  | .text s => .ok s
  | .object [(s, .null)] => .ok s
  | v => .error (faultOf v)

def ofKind (kind : String) : Reading Descriptor := fun v =>
  if kind = "name" then (asText v).map name
  else if kind = "address" then (Ip.ofJson v).map address
  else if kind = "network" then (Network.ofJson v).map network
  else .error .mismatch

def ofJson : Reading Descriptor := fun v => do
  let any : Reading Unit := fun _ => .ok ()
  let fs ← Fields.read [.of "kind" kindOfJson, .of "value" any] v
  ofKind (← fs.required "kind" kindOfJson) (← fs.required "value" .ok)

end Descriptor
end Reputation
