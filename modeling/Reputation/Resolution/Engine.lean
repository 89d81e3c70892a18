import Reputation.Entity.Descriptor
import Reputation.Index.Basic
import Reputation.Resolution.Aggregation
import Reputation.Resolution.Collection
/-!
Answering queries and submitting statements over arbitrary stores. A resolution reads one version
of the index from beginning to end; it either gives a whole verdict or fails.
-/
namespace Reputation

structure Engine (σ : Type) where
  store : RecordStore σ
  keys : KeyStore σ
  trust : SignerId → Float

structure Draft where
  certainty : Int32 := 3
  comment : Option String := none

structure Submitted where
  statement : Statement
  opinion : Opinion

namespace Engine

variable {σ : Type}

/-- The statements that may bear on what the query asks about. -/
def candidates (ix : Index) (d : Descriptor) : StatementIds :=
  match d.range? with
  | some r => ix.queryExact d.label ∪ ix.queryCovering r
  | none => ix.queryExact d.label

def fetch (e : Engine σ) (id : StatementId) : Attempt σ Statement := do
  match ← (e.store.getStatement id).await with
  | none => throw (.notFound ("statement " ++ id.text))
  | some record => Attempt.ofExcept (Statement.ofRecord record)

/-- Statements that are gone or invalid are passed over. -/
def fetchCandidate (e : Engine σ) (id : StatementId) : Attempt σ (Option Statement) :=
  tryCatch (some <$> e.fetch id) fun
    | .notFound _ => pure none
    | .invalidRecord _ => pure none
    | other => throw other

/-- Gives up if the resolution has been cancelled. -/
def checkpoint (cancelled : StateM σ Bool) : Attempt σ Unit := do
  if ← (ExceptT.lift cancelled : Attempt σ Bool) then throw .cancelled

/-- The opinions in effect on each candidate, in order. -/
def collectAll (e : Engine σ) (asOf : Instant) (cancelled : StateM σ Bool) :
    List StatementId → KeyCache → Attempt σ (List (StatementId × List Opinion))
  | [], _ => pure []
  | id :: ids, cache => do
    checkpoint cancelled
    match ← e.fetchCandidate id with
    | none => e.collectAll asOf cancelled ids cache
    | some s =>
      let (opinions, cache) ← Collection.collect e.store e.keys cache s.id asOf
      return (s.id, opinions) :: (← e.collectAll asOf cancelled ids cache)

/-- The verdict on what the query asks about. Cancellation is noticed before each candidate and
after the last one. -/
def resolveWith (e : Engine σ) (ix : Index) (d : Descriptor) (asOf : Instant)
    (cancelled : StateM σ Bool) : Attempt σ Verdict := do
  let collected ← e.collectAll asOf cancelled (candidates ix d).toList ∅
  checkpoint cancelled
  return aggregate d.label asOf collected e.trust

def resolve (e : Engine σ) (ix : Index) (d : Descriptor) (asOf : Instant) : Attempt σ Verdict :=
  e.resolveWith ix d asOf (pure false)

/-- The verdict on a single statement. Without a statement there are no data, but an invalid one
is an error. -/
def resolveStatement (e : Engine σ) (id : StatementId) (asOf : Instant) : Attempt σ Verdict := do
  let found ← tryCatch (some <$> e.fetch id) fun
    | .notFound _ => pure none
    | other => throw other
  match found with
  | none => return .ofNoData id.text asOf
  | some s =>
    let (opinions, _) ← Collection.collect e.store e.keys ∅ s.id asOf
    return aggregate s.firstEntity asOf [(s.id, opinions)] e.trust

/-- The statements with exactly this name and these labels, all of which have to be valid. -/
def findStatements (e : Engine σ) (name first : String) (second : Option String) :
    Attempt σ (List Statement) := do
  let records ← (e.store.findStatements name first second).await
  Attempt.ofExcept (records.mapM Statement.ofRecord)

def freshIndex (e : Engine σ) : Attempt σ Index := do
  return Index.ofRecords (← (e.store.scanStatements).await)

/-- One above the greatest serial that the signer has used; the greatest possible one stays. -/
def nextSerial (signer : SignerId) (opinions : List Opinion) : UInt32 :=
  match ((opinions.filter (·.body.signerId = signer)).map (·.body.serial)).max? with
  | none => 1
  | some last => if last = 0xffffffff then last else last + 1

/-- Stores the statement with its e-mail addresses hashed, signs an opinion on it, and adds it to
the index. Submitting a statement again restates the node's position. -/
def submit (e : Engine σ) (writer : StatementWriter σ) (ix : Index) (s : NewStatement)
    (draft : Draft) (own : OwnKey) (now : Instant) : Attempt σ (Submitted × Index) := do
  let statement ← (writer.insertStatement s.hashingEmails).await
  let previous ← (e.store.getOpinions statement.id).await
  let body : OpinionBody :=
    { statementId := statement.id
      signerId := own.signer
      date := now.wholeSecond
      valid := true
      serial := nextSerial own.signer previous
      certainty := draft.certainty
      comment := draft.comment }
  let opinion ← (writer.insertOpinion (own.sign body)).await
  return (⟨statement, opinion⟩, ix.insert statement)

end Engine
end Reputation
