import Reputation.Address.Range
import Reputation.Hash.Sha256
import Reputation.Key
/-!
Entities, the subjects of statements. Only networks cover addresses; e-mail addresses can be
replaced by the base64 of their SHA-256 digest.
-/
namespace Reputation

inductive Entity where
  | domain (name : String)
  | email (address : String)
  | autonomousSystem (number : UInt32)
  | network (n : Network)
  | signer (key : PublicKey)
  | url (address : String)
  | hashedEmail (digest : String)
deriving DecidableEq

namespace Entity

/-- The digest under which an e-mail address is published. -/
def emailDigest (address : String) : String :=
  String.ofList (Text.Base64.encode (Hash.Sha256.digest (Bytes.ofText address)))

/-- Hides e-mail addresses and keeps everything else. -/
def hashingEmail : Entity → Entity
  | email address => hashedEmail (emailDigest address)
  | other => other

def range? : Entity → Option AddressRange
  | network n => n.range?
  | _ => none

end Entity
end Reputation
