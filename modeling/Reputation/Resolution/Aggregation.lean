import Reputation.Opinion.Basic
import Reputation.Trust
import Reputation.Verdict
/-!
Folding the opinions in effect into a verdict: the average of the certainties by weight, added up
in the order of statement and signer, so that the same opinions give the same score bit for bit.
-/
namespace Reputation

def Contribution.ofOpinion (trust : SignerId → Float) (id : StatementId) (o : Opinion) :
    Contribution :=
  ⟨id, o.body.signerId, o.body.certainty, usableWeight (trust o.body.signerId)⟩

/-- By statement, then by signer. -/
def Contribution.upTo (a b : Contribution) : Bool :=
  a.statementId < b.statementId || (a.statementId = b.statementId && a.signerId ≤ b.signerId)

/-- The weighted sum of certainties and the sum of weights. -/
def weightedTotals (cs : List Contribution) : Float × Float :=
  cs.foldl (fun (sum, total) c =>
    (sum + Float.ofInt c.certainty.toInt * c.weight, total + c.weight)) (0.0, 0.0)

/-- Opinions without weight are shown but do not count; if none counts there are no data. -/
def aggregate (entity : String) (asOf : Instant)
    (collected : List (StatementId × List Opinion)) (trust : SignerId → Float) : Verdict :=
  let contributing := (collected.flatMap fun (id, opinions) =>
    opinions.map (Contribution.ofOpinion trust id)).mergeSort Contribution.upTo
  let (sum, total) := weightedTotals contributing
  if total == 0.0 then { Verdict.ofNoData entity asOf with contributing }
  else ⟨entity, asOf, sum / total, false, contributing⟩

end Reputation
