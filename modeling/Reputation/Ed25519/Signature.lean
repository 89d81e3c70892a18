import Reputation.Hash.Sha512
import Reputation.Ed25519.Point
/-!
Ed25519 signatures over byte strings. Verification is strict: the scalar must be reduced, neither
the key nor the commitment may have small order, and the commitment is compared as encoded.
-/
namespace Reputation.Ed25519

open Hash

/-- A scalar from a hash of byte strings, reduced modulo the group order. -/
def hashScalar (parts : List Bytes) : Nat :=
  Bytes.toNatLE (Sha512.digest parts.flatten) % order

/-- The secret scalar of a seed: bit 254 is set, the bits above it and the low three are clear. -/
def secretScalar (seed : Bytes) : Nat :=
  let n := Bytes.toNatLE ((Sha512.digest seed).take 32)
  n % (1 <<< 254) / 8 * 8 + (1 <<< 254)

def publicBytes (seed : Bytes) : Bytes :=
  (Point.scale (secretScalar seed) Point.base).encode

def sign (seed message : Bytes) : Bytes :=
  let key := publicBytes seed
  let r := hashScalar [(Sha512.digest seed).drop 32, message]
  let commitment := (Point.scale r Point.base).encode
  let k := hashScalar [commitment, key, message]
  commitment ++ Bytes.littleEndian 32 ((k * secretScalar seed + r) % order)

/-- Whether `signature` is a strict signature of `message` under the encoded point `key`. -/
def verify (key message signature : Bytes) : Bool :=
  let commitment := signature.take 32
  let s := Bytes.toNatLE (signature.drop 32)
  if signature.length ≠ 64 || order ≤ s then false
  else match Point.decode? key, Point.decode? commitment with
    | some a, some r =>
      if r.isSmallOrder || a.isSmallOrder then false
      else
        let k := hashScalar [commitment, key, message]
        (Point.add (Point.scale s Point.base) (Point.scale k a.neg)).encode = commitment
    | _, _ => false

end Reputation.Ed25519
