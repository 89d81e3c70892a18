import Reputation.Key
import Reputation.Opinion.Basic
/-!
The bytes that a signature covers, and signing and verifying by them. Fields have fixed widths and
the comment comes last with its length, so the bytes determine all that is signed: dates in whole
seconds, and a missing comment the same as an empty one.
-/
namespace Reputation

namespace OpinionBody

/-- The tag with the version of the layout. -/
def payloadTag : Bytes := Bytes.ofText "repnet/opinion/v1" ++ [0]

def commentBytes (b : OpinionBody) : Bytes :=
  Bytes.ofText (b.comment.getD "")

/-- The length field of a comment that is too long for it holds the greatest length. -/
def payload (b : OpinionBody) : Bytes :=
  payloadTag ++ Bytes.bigEndianInt 8 b.statementId.val.toInt ++
    Bytes.bigEndianInt 8 b.signerId.val.toInt ++ Bytes.bigEndianInt 8 b.date.seconds ++
    [if b.valid then 1 else 0] ++ Bytes.bigEndian 4 b.serial.toNat ++
    Bytes.bigEndianInt 4 b.certainty.toInt ++
    Bytes.bigEndian 4 (min b.commentBytes.length 0xffffffff) ++ b.commentBytes

def sign (b : OpinionBody) (key : SecretKey) : SignedOpinion :=
  ⟨b, Ed25519.sign key.seed b.payload⟩

end OpinionBody

/-- Whether the opinion's signature is one of its payload by the key. -/
def Opinion.verifies (o : Opinion) (key : PublicKey) : Bool :=
  Ed25519.verify key.bytes o.body.payload o.signature

structure OwnKey where
  secret : SecretKey
  signer : SignerId

/-- Signs as the key's own signer, whatever signer the body names. -/
def OwnKey.sign (own : OwnKey) (b : OpinionBody) : SignedOpinion :=
  { b with signerId := own.signer : OpinionBody }.sign own.secret

end Reputation
