import Reputation.Opinion.Payload
import Reputation.Statement
import Std.Data.TreeMap
/-!
The stores that resolution reads and writes. A call may answer, fail, or not come back before its
deadline, and what it does may depend on and change the state `σ` of the world outside in any way.
-/
namespace Reputation

inductive Reply (α : Type) where
  | answer (a : α)
  | failure (f : Failure)
  | late

abbrev Call (σ α : Type) := σ → Reply α × σ

/-- A computation that may fail; what it has done to the world by then stays done. -/
abbrev Attempt (σ α : Type) := ExceptT Error (StateM σ) α

/-- A call that is late counts as failed. -/
def Reply.result {α : Type} : Reply α → Except Error α
  | .answer a => .ok a
  | .failure f => .error f.classify
  | .late => .error (.storeUnavailable .elapsed)

/-- Waits for a call until its deadline. Nothing is tried again. -/
def Call.await {σ α : Type} (call : Call σ α) : Attempt σ α :=
  ExceptT.mk fun world => (call world).map Reply.result id

def Attempt.ofExcept {σ α : Type} : Except Error α → Attempt σ α
  | .ok a => pure a
  | .error e => throw e

structure RecordStore (σ : Type) where
  getStatement : StatementId → Call σ (Option StatementRecord)
  findStatements : (name first : String) → (second : Option String) → Call σ (List StatementRecord)
  scanStatements : Call σ (List StatementRecord)
  getOpinions : StatementId → Call σ (List Opinion)

structure KeyStore (σ : Type) where
  publicKeyFor : SignerId → Call σ (Option PublicKey)

structure StatementWriter (σ : Type) where
  insertStatement : NewStatement → Call σ Statement
  insertOpinion : SignedOpinion → Call σ Opinion

/-- The advisory side: when statements were last used and with which weight. -/
structure HintStore (σ : Type) where
  recordHints : Std.TreeMap StatementId Float → Instant → Call σ Unit

end Reputation
