import Reputation.Address.BoundText
import Reputation.Address.IpText
/-!
Closed ranges of addresses. A range read from serialised text may have its bounds out of order
and then contains nothing; the ranges of networks and of stored columns have them in order.
-/
namespace Reputation

structure AddressRange where
  min : Bound
  max : Bound
deriving DecidableEq

namespace AddressRange

def ofBounds (min max : Bound) : Except Error AddressRange :=
  if min ≤ max then .ok ⟨min, max⟩ else .error (.invalidRecord (.boundsOutOfOrder min max))

/-- Both bounds or neither. -/
def ofColumns : (min max : Option Bound) → Except Error (Option AddressRange)
  | none, none => .ok none
  | some min, some max => (ofBounds min max).map some
  | _, _ => .error (.invalidRecord .halfRange)

def point (p : Bound) : AddressRange := ⟨p, p⟩

def contains (r : AddressRange) (p : Bound) : Bool := r.min ≤ p && p ≤ r.max

def covers (r other : AddressRange) : Bool := r.min ≤ other.min && other.max ≤ r.max

end AddressRange

/-- A block of numbers that differ in their last `free` bits only stays below a power of two. -/
theorem blockEnd_lt {n width free : Nat} (h : n < 1 <<< width) (hf : free ≤ width) :
    n >>> free <<< free + (1 <<< free - 1) < 1 <<< width := by
  simp only [Nat.shiftLeft_eq, Nat.shiftRight_eq_div_pow, Nat.one_mul] at h ⊢
  have hw := Nat.pow_add 2 free (width - free)
  rw [Nat.add_sub_cancel' hf] at hw
  have hq := Nat.div_lt_of_lt_mul (hw ▸ h)
  have hm := Nat.mul_le_mul_right (2 ^ free) (Nat.succ_le_of_lt hq)
  have hp := Nat.two_pow_pos free
  rw [Nat.succ_mul, Nat.mul_comm (2 ^ (width - free)), ← hw] at hm
  omega

theorem blockStart_le (n free : Nat) : n >>> free <<< free ≤ n := by
  rw [Nat.shiftLeft_eq, Nat.shiftRight_eq_div_pow]
  exact Nat.div_mul_le_self ..

namespace Ipv4

/-- The first of the addresses that agree with `a` but for the last `free` bits. -/
def blockStart (a : Ipv4) (free : Nat) : Ipv4 :=
  ⟨a.value >>> free <<< free, Nat.lt_of_le_of_lt (blockStart_le ..) a.value_lt⟩

def blockEnd (a : Ipv4) (free : Nat) (h : free ≤ 32) : Ipv4 :=
  ⟨a.value >>> free <<< free + (1 <<< free - 1), @blockEnd_lt _ 32 _ a.value_lt h⟩

end Ipv4

namespace Ipv6

/-- The first of the addresses that agree with `a` but for the last `free` bits. -/
def blockStart (a : Ipv6) (free : Nat) : Ipv6 :=
  ⟨a.value >>> free <<< free, Nat.lt_of_le_of_lt (blockStart_le ..) a.value_lt⟩

def blockEnd (a : Ipv6) (free : Nat) (h : free ≤ 128) : Ipv6 :=
  ⟨a.value >>> free <<< free + (1 <<< free - 1), @blockEnd_lt _ 128 _ a.value_lt h⟩

end Ipv6

namespace Network

/-- The addresses that share the fixed bits. Bits of the address beyond them do not matter. -/
def range (n : Network) : Except Error AddressRange :=
  if n.address.width < n.length then .error (.invalidEntity (.label n.text))
  else
    match n.address with
    | .v4 a =>
      let free := 32 - n.length
      .ok ⟨.ofIpv4 (a.blockStart free), .ofIpv4 (a.blockEnd free (Nat.sub_le ..))⟩
    | .v6 a =>
      let free := 128 - n.length
      .ok ⟨.ofIpv6 (a.blockStart free), .ofIpv6 (a.blockEnd free (Nat.sub_le ..))⟩

def range? (n : Network) : Option AddressRange :=
  n.range.toOption

end Network
end Reputation
