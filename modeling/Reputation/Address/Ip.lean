/-!
Addresses of both families as numbers, and networks given by an address and a length. Nothing
ties the length to the family's width here.
-/
namespace Reputation

structure Ipv4 where
  value : Nat
  value_lt : value < 0x100000000
deriving DecidableEq

structure Ipv6 where
  value : Nat
  value_lt : value < 0x100000000000000000000000000000000
deriving DecidableEq

inductive Ip where
  | v4 (a : Ipv4)
  | v6 (a : Ipv6)
deriving DecidableEq

/-- An address with the number of leading bits that its network fixes. -/
structure Network where
  address : Ip
  length : Nat
deriving DecidableEq

namespace Ipv4

def ofNat? (n : Nat) : Option Ipv4 :=
  if h : n < 0x100000000 then some ⟨n, h⟩ else none

/-- The four octets, most significant first. -/
def octets (a : Ipv4) : List Nat :=
  [a.value >>> 24, a.value >>> 16 % 256, a.value >>> 8 % 256, a.value % 256]

/-- The address `::ffff:a.b.c.d` that stands for `a.b.c.d`. -/
def mapped (a : Ipv4) : Ipv6 :=
  ⟨0xffff00000000 + a.value, by have := a.value_lt; omega⟩

end Ipv4

namespace Ipv6

def ofNat? (n : Nat) : Option Ipv6 :=
  if h : n < 0x100000000000000000000000000000000 then some ⟨n, h⟩ else none

/-- The eight groups of sixteen bits, most significant first. -/
def groups (a : Ipv6) : List Nat :=
  (List.range 8).map fun i => a.value >>> (16 * (7 - i)) % 65536

/-- The address that is mapped to this one, if one is. -/
def unmapped? (a : Ipv6) : Option Ipv4 :=
  if a.value >>> 32 = 0xffff then Ipv4.ofNat? (a.value % 0x100000000) else none

end Ipv6

namespace Ip

def width : Ip → Nat
  | v4 _ => 32
  | v6 _ => 128

def host (a : Ip) : Network := ⟨a, a.width⟩

end Ip
end Reputation
