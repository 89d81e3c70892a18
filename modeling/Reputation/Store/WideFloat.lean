import Reputation.Text.Numeral
/-!
Positive numbers with a significand of 64 bits. Quotients and products are rounded to the nearest
of them, ties to the even one. Exponents have no bound.
-/
namespace Reputation.Store

/-- The number `significand * 2 ^ exponent`, where the significand has exactly 64 bits. -/
structure WideFloat where
  significand : Nat
  exponent : Int
deriving DecidableEq

namespace WideFloat

/-- The quotient of `n` by the power of two of `places`, rounded to nearest, ties to even. -/
def roundedShift (n places : Nat) : Nat :=
  let unit := 1 <<< places
  let q := n / unit
  let rest := 2 * (n % unit)
  if unit < rest ∨ (unit = rest ∧ q % 2 = 1) then q + 1 else q

/-- The number nearest to `n * 2 ^ exponent`, for a positive `n`. Rounding up to 65 bits leaves a
power of two. -/
def ofNat (n : Nat) (exponent : Int) : WideFloat :=
  let top := n.log2
  if top ≤ 63 then ⟨n <<< (63 - top), exponent - (63 - top : Nat)⟩
  else
    let kept := roundedShift n (top - 63)
    let exponent := exponent + (top - 63 : Nat)
    if kept = 0x10000000000000000 then ⟨0x8000000000000000, exponent + 1⟩ else ⟨kept, exponent⟩

/-- The number nearest to a positive fraction. The quotient is cut below the places that are kept,
and one more bit tells whether anything was cut off. -/
def ofFraction (num den : Nat) : WideFloat :=
  let places := 67 + den.log2
  let scaled := num <<< places
  ofNat (2 * (scaled / den) + if scaled % den = 0 then 0 else 1) (-(places + 1 : Nat))

/-- The number nearest to the power of ten of `k`. -/
def tenTo (k : Int) : WideFloat :=
  if 0 ≤ k then ofFraction (Text.powerOfTen k.toNat) 1
  else ofFraction 1 (Text.powerOfTen k.natAbs)

def mul (x y : WideFloat) : WideFloat :=
  ofNat (x.significand * y.significand) (x.exponent + y.exponent)

def isBelow (x y : WideFloat) : Bool :=
  x.exponent < y.exponent || (x.exponent = y.exponent && x.significand < y.significand)

/-- The whole part of a number below the 64th power of two. -/
def truncated (x : WideFloat) : Nat :=
  x.significand >>> x.exponent.natAbs

end WideFloat
end Reputation.Store
