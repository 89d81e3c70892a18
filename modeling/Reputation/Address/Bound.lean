import Reputation.Address.Ip
import Reputation.Text.Numeral
/-!
Bounds of address ranges: points of one ordered space of 128 bits, in which an IPv4 address lies
where its mapped address does. Their stored text has a fixed width, so that it sorts as they do.
-/
namespace Reputation

@[ext]
structure Bound where
  value : Nat
  value_lt : value < 0x100000000000000000000000000000000

namespace Bound

instance : DecidableEq Bound := fun _ _ => decidable_of_iff _ Bound.ext_iff.symm

instance : LE Bound := ⟨fun a b => a.value ≤ b.value⟩

instance : LT Bound := ⟨fun a b => a.value < b.value⟩

instance (a b : Bound) : Decidable (a ≤ b) := inferInstanceAs (Decidable (a.value ≤ b.value))

instance (a b : Bound) : Decidable (a < b) := inferInstanceAs (Decidable (a.value < b.value))

instance : Max Bound := ⟨fun a b => if a ≤ b then b else a⟩

def ofNat? (n : Nat) : Option Bound :=
  if h : n < 0x100000000000000000000000000000000 then some ⟨n, h⟩ else none

def ofIpv6 (a : Ipv6) : Bound := ⟨a.value, a.value_lt⟩

def ofIpv4 (a : Ipv4) : Bound := ofIpv6 a.mapped

def ofIp : Ip → Bound
  | .v4 a => ofIpv4 a
  | .v6 a => ofIpv6 a

/-- Thirty-two lower-case hexadecimal digits. -/
def text (b : Bound) : String :=
  String.ofList (Text.fixedDigits 16 32 b.value)

end Bound
end Reputation
