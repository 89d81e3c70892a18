import Reputation.Store.Memory
/-!
A store in memory whose calls can be made to fail, for rehearsing how resolution copes. Calls are
counted, whether they fail or not, and a resolution can be cancelled while a given record is being
fetched.
-/
namespace Reputation.Store

inductive Method where
  | getStatement
  | find
  | scan
  | getOpinions
  | insertStatement
  | insertOpinion
  | recordHints
  | publicKeyFor
deriving DecidableEq

inductive Outcome where
  | failure (f : Failure)
  | late

/-- A rule makes all calls of a method fail, or only those that ask for one number. -/
structure FaultRule where
  method : Method
  target : Option Int64
  outcome : Outcome

def FaultRule.appliesTo (r : FaultRule) (method : Method) (target : Option Int64) : Bool :=
  r.method = method && (r.target.isNone || r.target = target)

structure Rehearsal where
  memory : Memory := {}
  rules : List FaultRule := []
  /-- The methods called, the last one first. -/
  calls : List Method := []
  /-- How many more records may be fetched before the resolution is cancelled. -/
  fetchesLeft : Option Nat := none

namespace Rehearsal

def count (r : Rehearsal) (method : Method) : Nat := r.calls.count method

def cancelled : StateM Rehearsal Bool := do
  return (← get).fetchesLeft = some 0

def book (r : Rehearsal) (method : Method) : Rehearsal :=
  { r with
    calls := method :: r.calls
    fetchesLeft := if method = .getStatement then r.fetchesLeft.map (· - 1) else r.fetchesLeft }

/-- A call fails as the first rule that applies to it says, and has no other effect then. -/
def perform {α : Type} (method : Method) (target : Option Int64)
    (action : Memory → Reply α × Memory) : Call Rehearsal α := fun r =>
  let r := r.book method
  match r.rules.find? (·.appliesTo method target) with
  | some rule => match rule.outcome with
    | .failure f => (.failure f, r)
    | .late => (.late, r)
  | none => (action r.memory).map id fun memory => { r with memory }

def consult {α : Type} (method : Method) (target : Option Int64) (query : Memory → α) :
    Call Rehearsal α :=
  perform method target fun m => (.answer (query m), m)

def records : RecordStore Rehearsal where
  getStatement id := consult .getStatement (some id.val) (·.statements[id]?)
  findStatements name first second := consult .find none (·.findStatements name first second)
  scanStatements := consult .scan none (·.scanStatements)
  getOpinions id := consult .getOpinions (some id.val) (·.getOpinions id)

def keys : KeyStore Rehearsal where
  publicKeyFor signer := consult .publicKeyFor (some signer.val) (·.keys[signer]?)

def writer : StatementWriter Rehearsal where
  insertStatement s := perform .insertStatement none (·.insertStatement s)
  insertOpinion o := perform .insertOpinion none fun m => (m.insertOpinion o).map .answer id

def hintStore : HintStore Rehearsal where
  recordHints weights _ := perform .recordHints none fun m => (.answer (), m.recordHints weights)

end Rehearsal
end Reputation.Store
