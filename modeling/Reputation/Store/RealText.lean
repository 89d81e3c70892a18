import Reputation.Store.WideFloat
/-!
The decimal text of floats as a text column keeps it: fifteen significant digits, without zeros at
the end but with at least one digit after the point. Exponents below -4 or above 14 are written
out. The digits are those of the float once it is brought near a whole number of 18 digits in steps
of powers of ten, each of which rounds; where these steps miss the tie between two texts, the text
is not the nearest one.
-/
namespace Reputation.Store

open Text

/-- The size of a finite float other than zero. -/
def magnitude (x : Float) : WideFloat :=
  let bits := x.toBits.toNat
  let exponent := bits >>> 52 % 2048
  let fraction := bits % (1 <<< 52)
  if exponent = 0 then .ofNat fraction (-1074)
  else .ofNat (fraction + (1 <<< 52)) (exponent - 1075)

structure Scaled where
  value : WideFloat
  exponent : Int
deriving DecidableEq

namespace Scaled

/-- Takes out `10 ^ step` as long as the value is at least `10 ^ bound`; `fuel` bounds the number of
steps. -/
def shrink (bound : Int) (step : Nat) : (fuel : Nat) → Scaled → Scaled
  | 0, s => s
  | fuel + 1, s =>
    if s.value.isBelow (.tenTo bound) then s
    else shrink bound step fuel ⟨s.value.mul (.tenTo (-step)), s.exponent + step⟩

/-- Puts in `10 ^ step` as long as the value is less than `10 ^ bound`; `fuel` bounds the number of
steps. -/
def grow (bound : Int) (step : Nat) : (fuel : Nat) → Scaled → Scaled
  | 0, s => s
  | fuel + 1, s =>
    if s.value.isBelow (.tenTo bound) then
      grow bound step fuel ⟨s.value.mul (.tenTo step), s.exponent - step⟩
    else s

/-- Brings the value of a float to at least `10 ^ 17` and below `10 ^ 19`. Few steps of each size
are needed, since floats lie between `10 ^ (-324)` and `10 ^ 309`. -/
def normalized (x : WideFloat) : Scaled :=
  let large := shrink 19 1 20 (shrink 29 10 20 (shrink 119 100 20 ⟨x, 0⟩))
  grow 17 1 20 (grow 7 10 20 (grow (-97) 100 20 large))

end Scaled

/-- Fifteen digits and the exponent of the first of them. The whole part has more digits; a half of
the last digit counts as a whole. -/
def significant (x : WideFloat) : List Char × Int :=
  let s := Scaled.normalized x
  let whole := s.value.truncated
  let size := (shortDigits 10 whole.log2 whole).length
  let k := s.exponent + (size - 1 : Nat)
  let unit := powerOfTen (size - 15)
  let n := (2 * whole + unit) / (2 * unit)
  if n = powerOfTen 15 then (fixedDigits 10 15 (powerOfTen 14), k + 1) else (fixedDigits 10 15 n, k)

/-- Drops zeros at the end but keeps one digit. -/
def trimZeros (ds : List Char) : List Char :=
  match (ds.reverse.dropWhile (· = '0')).reverse with
  | [] => ['0']
  | kept => kept

def positiveText (x : WideFloat) : List Char :=
  let (ds, k) := significant x
  if k < -4 ∨ 14 < k then
    let size := shortDigits 10 k.natAbs k.natAbs
    ds.take 1 ++ ['.'] ++ trimZeros (ds.drop 1) ++ ['e', if k < 0 then '-' else '+'] ++
      List.replicate (2 - size.length) '0' ++ size
  else if k < 0 then ['0', '.'] ++ List.replicate (k.natAbs - 1) '0' ++ trimZeros ds
  else ds.take (k.toNat + 1) ++ ['.'] ++ trimZeros (ds.drop (k.toNat + 1))

/-- Zeros of either sign look the same. -/
def realText (x : Float) : String :=
  if x == 0.0 then "0.0"
  else
    let size := if x.isFinite then positiveText (magnitude x) else ['I', 'n', 'f']
    String.ofList (if x < 0.0 then '-' :: size else size)

end Reputation.Store
