import Reputation.Id
import Reputation.Time.Instant
import Std.Data.TreeMap
/-!
Verdicts: the score of an entity with the contributions it was computed from.
-/
namespace Reputation

structure Contribution where
  statementId : StatementId
  signerId : SignerId
  certainty : Int32
  weight : Float
deriving DecidableEq

structure Verdict where
  entity : String
  asOf : Instant
  score : Float
  noData : Bool
  contributing : List Contribution
deriving DecidableEq

namespace Verdict

def ofNoData (entity : String) (asOf : Instant) : Verdict :=
  ⟨entity, asOf, 0.0, true, []⟩

/-- The weights of each statement's contributions, added up in their order from zero. -/
def statementWeights (v : Verdict) : Std.TreeMap StatementId Float :=
  v.contributing.foldl (fun m c => m.insert c.statementId (m.getD c.statementId 0.0 + c.weight)) ∅

end Verdict
end Reputation
