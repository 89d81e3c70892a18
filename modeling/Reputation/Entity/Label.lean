import Reputation.Entity.Basic
/-!
The labels by which statements name their entities. The kinds are tried in a fixed order, and a
text that has the marks of a key or an address but is none is refused rather than tried further.
-/
namespace Reputation

open Text

/-- The text of a network; the length is left out for a single address. -/
def Network.label (n : Network) : String :=
  if n.length = n.address.width then n.address.text else n.text

/-- Reads an address with an optional length. The outer `none` stands for a text whose part
before the slash is no address; lengths beyond the width and bits beyond the length are refused. -/
def Network.parse? (s : String) : Option (Except Error Network) :=
  let (addressPart, lengthPart) := match splitAtFirst? '/' s.toList with
    | some (a, l) => (a, some l)
    | none => (s.toList, none)
  (Ip.parseChars? addressPart).map fun address =>
    let length := match lengthPart with
      | none => some address.width
      | some l => naturalUpTo? 255 l
    match length with
    | none => .error (.invalidEntity (.label s))
    | some length => do
      let n : Network := ⟨address, length⟩
      let range ← n.range
      if range.min = Bound.ofIp address then .ok n else .error (.invalidEntity (.label s))

namespace Entity

def label : Entity → String
  | domain s => s
  | email s => s
  | autonomousSystem n => "AS" ++ decimalText n.toNat
  | network n => n.label
  | signer key => key.text
  | url s => s
  | hashedEmail s => "#@" ++ s

/-- The kinds without marks of their own: networks, names with a dot, and system numbers. -/
def parsePlain (s : String) : Except Error Entity :=
  match Network.parse? s with
  | some n => n.map network
  | none =>
    if s.toList.contains '.' then .ok (domain s)
    else match (dropStart? ['A', 'S'] s.toList).bind (naturalUpTo? 0xffffffff) with
      | some n => .ok (autonomousSystem (UInt32.ofNat n))
      | none => .error (.invalidEntity (.label s))

def parse (s : String) : Except Error Entity :=
  let cs := s.toList
  if (dropStart? "http://".toList cs).isSome || (dropStart? "https://".toList cs).isSome then
    .ok (url s)
  else match dropStart? ['#', '@'] cs with
    | some digest => .ok (hashedEmail (String.ofList digest))
    | none =>
      if (dropStart? PublicKey.scheme cs).isSome then (PublicKey.parse s).map signer
      else if cs.contains '@' then .ok (email s)
      else parsePlain s

end Entity
end Reputation
