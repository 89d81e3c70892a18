import Reputation.Resolution.Collaborators
import Reputation.Store.Tables
/-!
The tables as the stores that resolution reads and writes. Calls on tables always come back; what
goes wrong in them is passed on as the cause of a failure.
-/
namespace Reputation.Store

def reply {α : Type} : Except StoreError α → Reply α
  | .ok a => .answer a
  | .error e => .failure e.toFailure

namespace Tables

def records : RecordStore Tables where
  getStatement id t := (reply (t.getStatement id), t)
  findStatements name first second t := (.answer (t.findStatements name first second), t)
  scanStatements t := (.answer t.scanStatements, t)
  getOpinions id t := (.answer (t.getOpinions id), t)

def keys : KeyStore Tables where
  publicKeyFor signer t := (.answer (t.publicKeyFor signer), t)

def writer : StatementWriter Tables where
  insertStatement s t := (t.insertStatement s).map reply id
  insertOpinion o t := (t.insertOpinion o).map reply id

def hintStore : HintStore Tables where
  recordHints weights usedAt t := (.answer (), t.recordHints weights usedAt)

end Tables
end Reputation.Store
