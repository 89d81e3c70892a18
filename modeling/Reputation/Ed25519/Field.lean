/-!
Arithmetic modulo `2 ^ 255 - 19`. Elements are numbers below the modulus; every operation
reduces its result, so operands may be any numbers.
-/
namespace Reputation.Ed25519

def modulus : Nat := (1 <<< 255) - 19

namespace Field

def add (a b : Nat) : Nat := (a + b) % modulus

def neg (a : Nat) : Nat := (modulus - a % modulus) % modulus

def sub (a b : Nat) : Nat := (a + (modulus - b % modulus)) % modulus

def mul (a b : Nat) : Nat := (a * b) % modulus

/-- Square and multiply over the low `bits` bits of the exponent. -/
def powLow : (bits : Nat) → (base exponent acc : Nat) → Nat
  | 0, _, _, acc => acc
  | bits + 1, base, exponent, acc =>
    powLow bits (mul base base) (exponent / 2) (if exponent % 2 = 1 then mul acc base else acc)

/-- Powers with exponents below `2 ^ 256`. -/
def pow (base exponent : Nat) : Nat := powLow 256 (base % modulus) exponent 1

/-- The inverse by Fermat's theorem; zero for zero. -/
def inv (a : Nat) : Nat := pow a (modulus - 2)

/-- A square root of minus one. -/
def rootOfMinusOne : Nat := pow 2 ((modulus - 1) / 4)

/-- A square root of `u / v`, if there is one: the candidate is right up to a root of minus one. -/
def sqrtRatio? (u v : Nat) : Option Nat :=
  let v3 := mul (mul v v) v
  let v7 := mul (mul v3 v3) v
  let r := mul (mul u v3) (pow (mul u v7) ((modulus - 5) / 8))
  let check := mul v (mul r r)
  if check = u % modulus then some r
  else if check = neg u then some (mul r rootOfMinusOne)
  else none

end Field
end Reputation.Ed25519
