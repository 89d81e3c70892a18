import Reputation.Entity.Label
import Reputation.Time.Instant
/-!
Statements: immutable claims about one or two entities. A record is a statement as a store delivers
it; it becomes a statement by validation. A new statement has typed entities and no number yet.
-/
namespace Reputation

structure StatementRecord where
  id : StatementId
  name : String
  firstEntity : String
  secondEntity : Option String
  lower : Option Bound
  upper : Option Bound
deriving DecidableEq

structure Statement where
  id : StatementId
  name : String
  firstEntity : String
  secondEntity : Option String
  range : Option AddressRange
deriving DecidableEq

namespace Statement

def labels (s : Statement) : List String :=
  s.firstEntity :: s.secondEntity.toList

def toRecord (s : Statement) : StatementRecord :=
  ⟨s.id, s.name, s.firstEntity, s.secondEntity, s.range.map (·.min), s.range.map (·.max)⟩

/-- Names the statement in the fault of its record. -/
def located (id : StatementId) : Error → Error
  | .invalidRecord fault => .invalidRecord (.inStatement id fault)
  | other => other

/-- A valid record has texts that are not empty, and both bounds in order or none. -/
def ofRecord (r : StatementRecord) : Except Error Statement :=
  if r.name = "" then .error (located r.id (.invalidRecord .emptyName))
  else if r.firstEntity = "" then .error (located r.id (.invalidRecord .emptyFirstEntity))
  else if r.secondEntity = some "" then .error (located r.id (.invalidRecord .emptySecondEntity))
  else match AddressRange.ofColumns r.lower r.upper with
    | .error e => .error (located r.id e)
    | .ok range => .ok ⟨r.id, r.name, r.firstEntity, r.secondEntity, range⟩

end Statement

structure NewStatement where
  name : String
  first : Entity
  second : Option Entity
deriving DecidableEq

namespace NewStatement

def signerName : String := "signer"

/-- The statement that describes the holder of a key. -/
def ofKey (key : PublicKey) : NewStatement :=
  ⟨signerName, .signer key, none⟩

/-- The range of a statement is that of its first entity. -/
def range? (s : NewStatement) : Option AddressRange :=
  s.first.range?

def hashingEmails (s : NewStatement) : NewStatement :=
  ⟨s.name, s.first.hashingEmail, s.second.map Entity.hashingEmail⟩

end NewStatement

/-- Advisory notes on a statement, never part of its identity. -/
structure Hints where
  lastUsed : Option Instant
  lastWeight : Option Float

end Reputation
