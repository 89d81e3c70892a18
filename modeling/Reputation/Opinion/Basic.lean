import Reputation.Bytes
import Reputation.Id
import Reputation.Time.Instant
/-!
Opinions: what a signer holds about a statement. Opinions are never changed; a later one with a
higher serial takes the place of an earlier one, and one that is not valid takes it back.
-/
namespace Reputation

structure OpinionBody where
  statementId : StatementId
  signerId : SignerId
  date : Instant
  valid : Bool
  serial : UInt32
  certainty : Int32
  comment : Option String
deriving DecidableEq

structure SignedOpinion where
  body : OpinionBody
  signature : Bytes
deriving DecidableEq

structure Opinion where
  id : OpinionId
  body : OpinionBody
  signature : Bytes
deriving DecidableEq

end Reputation
