import Reputation.Api.Service
import Reputation.Store.Access
import Reputation.Store.Schema
/-!
A node at work: a service, the world its stores live in, and the current version of the index. Each
operation answers and gives the node after it; one that fails keeps the index.
-/
namespace Reputation

open Api (Service Request Response)

structure Node (σ : Type) where
  service : Service σ
  world : σ
  index : Index

namespace Node

variable {σ : Type}

def run {α : Type} (n : Node σ) (a : Attempt σ α) : Except Error α × Node σ :=
  let (result, world) := ExceptT.run a n.world
  (result, { n with world })

/-- Runs a computation that also gives a new version of the index. -/
def runIndexed {α : Type} (n : Node σ) (a : Attempt σ (α × Index)) : Except Error α × Node σ :=
  match n.run a with
  | (.ok (a, index), n) => (.ok a, { n with index })
  | (.error e, n) => (.error e, n)

/-- Indexes the whole store anew and counts what is indexed. -/
def refresh (n : Node σ) : Except Error Nat × Node σ :=
  n.runIndexed do
    let ix ← n.service.engine.freshIndex
    return (ix.size, ix)

def start (service : Service σ) (world : σ) : Except Error Nat × Node σ :=
  refresh ⟨service, world, .empty⟩

def resolve (n : Node σ) (d : Descriptor) (asOf : Instant) : Except Error Verdict × Node σ :=
  n.run (n.service.engine.resolve n.index d asOf)

def resolveStatement (n : Node σ) (id : StatementId) (asOf : Instant) :
    Except Error Verdict × Node σ :=
  n.run (n.service.engine.resolveStatement id asOf)

def findStatements (n : Node σ) (name first : String) (second : Option String) :
    Except Error (List Statement) × Node σ :=
  n.run (n.service.engine.findStatements name first second)

def submit (n : Node σ) (s : NewStatement) (draft : Draft) (own : OwnKey) (now : Instant) :
    Except Error Submitted × Node σ :=
  n.runIndexed (n.service.engine.submit n.service.writer n.index s draft own now)

def added (n : Node σ) (s : Statement) : Node σ :=
  { n with index := n.index.insert s }

/-- Tells the index of a statement that was removed; answers whether the index had it. -/
def removed (n : Node σ) (id : StatementId) : Bool × Node σ :=
  let (index, found) := n.index.remove id
  (found, { n with index })

def withOwnKey (n : Node σ) (own : OwnKey) : Node σ :=
  { n with service := { n.service with own := some own } }

def handle (n : Node σ) (now : Instant) (r : Request) : Response × Node σ :=
  let ((response, index), world) := (n.service.handle now n.index r).run n.world
  (response, { n with world, index })

end Node

namespace Store

/-- The service over tables, which hold the keys of signers as well. -/
def Tables.service (trust : SignerId → Float) : Service Tables where
  engine := ⟨records, keys, trust⟩
  writer := writer
  hints := hintStore
  own := none

/-- Stores and indexes the statement that describes the holder of a key, and makes the key the
node's own. -/
def adoptKey (n : Node Tables) (secret : SecretKey) : Except StoreError SignerId × Node Tables :=
  match n.world.insertStatement (.ofKey secret.publicKey) with
  | (.error e, world) => (.error e, { n with world })
  | (.ok s, world) =>
    (.ok s.id.signer, ({ n with world }.added s).withOwnKey ⟨secret, s.id.signer⟩)

def announce (n : Node Tables) (id : StatementId) : Except StoreError Bool × Node Tables :=
  match n.world.getStatement id with
  | .error e => (.error e, n)
  | .ok none => (.ok false, n)
  | .ok (some record) => match Statement.ofRecord record with
    | .error e => (.error (.core e), n)
    | .ok s => (.ok true, n.added s)

end Store
end Reputation
