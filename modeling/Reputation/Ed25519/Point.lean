import Reputation.Bytes
import Reputation.Ed25519.Field
/-!
Points of the curve `-x² + y² = 1 + d x² y²` in extended coordinates, with `x = X / Z`,
`y = Y / Z` and `T = X Y / Z`. The addition law is complete, so it also doubles.
A point is written as 32 little-endian bytes of `y` whose top bit is the parity of `x`.
-/
namespace Reputation.Ed25519

open Ed25519.Field

structure Point where
  x : Nat
  y : Nat
  z : Nat
  t : Nat
deriving DecidableEq, Repr

/-- The coefficient `d`, minus 121665 over 121666. -/
def coefficient : Nat :=
  0x52036cee2b6ffe738cc740797779e89800700a4d4141d8ab75eb4dca135978a3

/-- The order of the subgroup that the base point generates. -/
def order : Nat := (1 <<< 252) + 27742317777372353535851937790883648493

namespace Point

def identity : Point := ⟨0, 1, 1, 0⟩

def add (p q : Point) : Point :=
  let a := mul (sub p.y p.x) (sub q.y q.x)
  let b := mul (Field.add p.y p.x) (Field.add q.y q.x)
  let c := mul (mul 2 coefficient) (mul p.t q.t)
  let d := mul 2 (mul p.z q.z)
  let e := sub b a
  let f := sub d c
  let g := Field.add d c
  let h := Field.add b a
  ⟨mul e f, mul g h, mul f g, mul e h⟩

def neg (p : Point) : Point := ⟨Field.neg p.x, p.y, p.z, Field.neg p.t⟩

/-- Adds the multiple of `p` by the low `bits` bits of `n` to `acc`. -/
def scaleLow : (bits n : Nat) → (p acc : Point) → Point
  | 0, _, _, acc => acc
  | bits + 1, n, p, acc =>
    scaleLow bits (n / 2) (add p p) (if n % 2 = 1 then add acc p else acc)

/-- Multiples by numbers below `2 ^ 256`. -/
def scale (n : Nat) (p : Point) : Point := scaleLow 256 n p identity

/-- The base point, with `y = 4 / 5` and even `x`. -/
def base : Point :=
  let x := 0x216936d3cd6e53fec0a4e231fdd6dc5c692cc7609525a7b2c9562d608f25d51a
  let y := 0x6666666666666666666666666666666666666666666666666666666666666658
  ⟨x, y, 1, mul x y⟩

def isIdentity (p : Point) : Bool := p.x = 0 && p.y = p.z

/-- Points whose order divides eight. -/
def isSmallOrder (p : Point) : Bool := (scale 8 p).isIdentity

def encode (p : Point) : Bytes :=
  let zi := inv p.z
  let x := mul p.x zi
  let y := mul p.y zi
  Bytes.littleEndian 32 (y + (x % 2) <<< 255)

/-- Reads 32 bytes. A `y` beyond the modulus is reduced, and a set parity bit over `x = 0` is
ignored, so one point may have several spellings. -/
def decode? (bytes : Bytes) : Option Point :=
  if bytes.length = 32 then
    let n := Bytes.toNatLE bytes
    let y := n % (1 <<< 255) % modulus
    let yy := mul y y
    (sqrtRatio? (sub yy 1) (Field.add (mul coefficient yy) 1)).map fun r =>
      let x := if r % 2 = n >>> 255 then r else Field.neg r
      ⟨x, y, 1, mul x y⟩
  else none

end Point
end Reputation.Ed25519
