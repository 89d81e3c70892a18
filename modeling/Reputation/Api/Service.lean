import Reputation.Api.Request
import Reputation.Api.Response
import Reputation.Resolution.Engine
import Reputation.Wire.Records
/-!
The lookup service of a node. Requests are answered from the stores and the index; a lookup changes
nothing but hints, and only a submission or a refresh changes the index.
-/
namespace Reputation.Api

structure Service (σ : Type) where
  engine : Engine σ
  writer : StatementWriter σ
  hints : HintStore σ
  /-- Signs submissions. A node without a key only answers queries. -/
  own : Option OwnKey

/-- The handling of a request, which may end early with a response. -/
abbrev Handling (σ α : Type) := ExceptT Response (StateM σ) α

namespace Service

variable {σ : Type}

def attempt {α : Type} (a : Attempt σ α) : Handling σ α :=
  a.adapt fun e => (ApiError.ofError e).response

def orRefuse {α : Type} (status : Nat) : Option α → Handling σ α
  | some a => pure a
  | none => throw (.refusal status)

def orFail {α : Type} : Except Error α → Handling σ α
  | .ok a => pure a
  | .error e => throw (ApiError.ofError e).response

/-- The instant that a query is about: the one it names, or the present. -/
def asOf (now : Instant) (query : List Char) : Handling σ Instant :=
  match parameter (formPairs query) "as_of" with
  | .error _ => throw (.refusal 400)
  | .ok none => pure now
  | .ok (some t) => orRefuse 400 (Instant.parse? t)

/-- Notes the weights of a verdict's statements. Whether that works makes no difference. -/
def noteHints (svc : Service σ) (v : Verdict) (now : Instant) : Handling σ Unit :=
  ExceptT.mk fun world => (.ok (), (svc.hints.recordHints v.statementWeights now world).2)

def lookUp (svc : Service σ) (now : Instant) (ix : Index) (segment query : List Char) :
    Handling σ Response := do
  let entity ← orRefuse 400 (decodeSegment? segment)
  let t ← asOf now query
  let d ← orFail (Descriptor.parse entity)
  let v ← attempt (svc.engine.resolve ix d t)
  svc.noteHints v now
  return ⟨200, some v.toJson⟩

def find (svc : Service σ) (query : List Char) : Handling σ Response := do
  let pairs := formPairs query
  match parameter pairs "name", parameter pairs "entity_1", parameter pairs "entity_2" with
  | .ok (some name), .ok (some first), .ok second =>
    let found ← attempt (svc.engine.findStatements name first second)
    return ⟨200, some (.array (found.map Statement.toJson))⟩
  | _, _, _ => throw (.refusal 400)

def resolveOne (svc : Service σ) (now : Instant) (segment query : List Char) :
    Handling σ Response := do
  let text ← orRefuse 400 (decodeSegment? segment)
  let id ← orRefuse 400 (Text.int64? text.toList)
  let v ← attempt (svc.engine.resolveStatement ⟨id⟩ (← asOf now query))
  return ⟨200, some v.toJson⟩

def noSigningKey : ApiError := .forbidden "this node has no signing key configured"

def emptyStatementName : ApiError := .badRequest "statement name must not be empty"

/-- What a submission asks to publish: its first fault counts, the name before the entities. -/
def ofSubmission (s : Submission) : Except Response NewStatement :=
  if Text.trim s.name = "" then .error emptyStatementName.response
  else
    let parsed : Except Error NewStatement := do
      let first ← Entity.parse s.first
      let second ← s.second.mapM Entity.parse
      return ⟨Text.trim s.name, first, second⟩
    parsed.mapError fun e => (ApiError.ofError e).response

def submit (svc : Service σ) (now : Instant) (ix : Index) (r : Request) :
    Handling σ (Response × Index) := do
  let submission ← match Submission.ofRequest r with
    | .ok s => pure s
    | .error status => throw (Response.refusal status)
  let own ← match svc.own with
    | some own => pure own
    | none => throw noSigningKey.response
  let statement ← ExceptT.mk (pure (ofSubmission submission))
  let draft : Draft := ⟨submission.certainty, submission.comment⟩
  let (s, ix) ← attempt (svc.engine.submit svc.writer ix statement draft own now)
  let body := Json.object [("statement", s.statement.toJson),
    ("opinion", .ofInt64 s.opinion.id.val), ("serial", .int s.opinion.body.serial.toNat)]
  return (⟨201, some body⟩, ix)

def refresh (svc : Service σ) : Handling σ (Response × Index) := do
  let ix ← attempt svc.engine.freshIndex
  return (⟨200, some (.object [("statements", .int ix.size)])⟩, ix)

def dispatch (svc : Service σ) (now : Instant) (ix : Index) (r : Request) :
    Handling σ (Response × Index) :=
  let reads := r.method = .get ∨ r.method = .head
  match Route.ofPath? r.path with
  | none => throw (.refusal 404)
  | some (.entity e) =>
    if reads then (·, ix) <$> svc.lookUp now ix e r.query else throw (.refusal 405)
  | some .statements =>
    if reads then (·, ix) <$> svc.find r.query
    else if r.method = .post then svc.submit now ix r
    else throw (.refusal 405)
  | some (.statement id) =>
    if reads then (·, ix) <$> svc.resolveOne now id r.query else throw (.refusal 405)
  | some .refresh => if r.method = .post then svc.refresh else throw (.refusal 405)

/-- Answers a request. An early response leaves the index as it was, and a request for the head
only is answered without a body. -/
def handle (svc : Service σ) (now : Instant) (ix : Index) (r : Request) :
    StateM σ (Response × Index) := do
  let (response, ix) := match ← (svc.dispatch now ix r).run with
    | .ok done => done
    | .error response => (response, ix)
  return (if r.method = .head then { response with body := none } else response, ix)

end Service
end Reputation.Api
