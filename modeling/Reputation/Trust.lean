import Reputation.Id
import Std.Data.TreeMap
/-!
Trust in signers: a weight for each signer that has one, and a default for all others.
-/
namespace Reputation

structure TrustTable where
  default : Float
  weights : Std.TreeMap SignerId Float := ∅

namespace TrustTable

/-- A later weight for the same signer replaces the earlier one. -/
def set (t : TrustTable) (signer : SignerId) (weight : Float) : TrustTable :=
  { t with weights := t.weights.insert signer weight }

def weightFor (t : TrustTable) (signer : SignerId) : Float :=
  t.weights.getD signer t.default

def size (t : TrustTable) : Nat := t.weights.size

end TrustTable

/-- The weight that counts: one that is not finite or is negative counts as zero. -/
def usableWeight (w : Float) : Float :=
  if w.isFinite && 0.0 ≤ w then w else 0.0

end Reputation
