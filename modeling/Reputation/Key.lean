import Reputation.Ed25519.Signature
import Reputation.Error
import Reputation.Text.Base64
import Reputation.Text.Blank
/-!
Public keys, which are encoded points kept as they were given, and secret keys with the public key
that belongs to them. The text of a public key is `ed25519:` and the base64 of its 32 bytes.
-/
namespace Reputation

structure PublicKey where
  bytes : Bytes
  isPoint : (Ed25519.Point.decode? bytes).isSome
deriving DecidableEq

namespace PublicKey

def scheme : List Char := "ed25519:".toList

def ofBytes (bytes : Bytes) : Except Error PublicKey :=
  if bytes.length ≠ 32 then .error (.invalidEntity (.keyLength bytes.length))
  else if h : (Ed25519.Point.decode? bytes).isSome then .ok ⟨bytes, h⟩
  else .error (.invalidEntity .keyNotOnCurve)

def textChars (key : PublicKey) : List Char :=
  scheme ++ Text.Base64.encode key.bytes

def text (key : PublicKey) : String :=
  String.ofList key.textChars

def parse (s : String) : Except Error PublicKey :=
  match (Text.dropStart? scheme s.toList).bind Text.Base64.decode? with
  | some bytes => ofBytes bytes
  | none => .error (.invalidEntity (.label s))

end PublicKey

structure SecretKey where
  seed : Bytes
  publicKey : PublicKey
  seed_length : seed.length = 32
  publicKey_eq : publicKey.bytes = Ed25519.publicBytes seed
deriving DecidableEq

/-- Any 32 bytes are a secret key. -/
def SecretKey.ofSeed? (seed : Bytes) : Option SecretKey :=
  if h : seed.length = 32 ∧ (Ed25519.Point.decode? (Ed25519.publicBytes seed)).isSome then
    some ⟨seed, ⟨Ed25519.publicBytes seed, h.2⟩, h.1, rfl⟩
  else none

end Reputation
