import Reputation.Opinion.Payload
import Reputation.Statement
import Reputation.Store.Cell
import Std.Data.TreeMap
/-!
The three tables of a store and its operations on them. Statements are unique by name, labels and
bounds, where a missing value counts as the empty text; opinions by statement, signer, date and
serial. Opinions and hints refer to stored statements.
-/
namespace Reputation.Store

structure StatementRow where
  id : StatementId
  name : String
  first : String
  second : Option String
  lower : Cell
  upper : Cell
deriving DecidableEq

structure OpinionRow where
  id : OpinionId
  statementId : StatementId
  signerId : SignerId
  date : Int64
  valid : Int64
  serial : Int64
  certainty : Int64
  signature : Bytes
  comment : Option String
deriving DecidableEq

structure HintRow where
  statementId : StatementId
  lastUsed : Option Int64
  lastWeight : Option Float
deriving DecidableEq

structure Tables where
  statements : List StatementRow
  opinions : List OpinionRow
  hints : List HintRow
deriving DecidableEq

inductive StoreError where
  | core (e : Error)
  /-- Another row has the number or the key of the row to be stored. -/
  | keyTaken
  | duplicateOpinion (signer : SignerId) (statement : StatementId) (serial : UInt32)
  | statementNotFound (id : StatementId)
  | schemaTooNew (found : Nat)

def supportedVersion : Nat := 3

def StoreError.message : StoreError → String
  | core e => "core error: " ++ e.message
  | keyTaken => "database error: the key belongs to another row"
  | duplicateOpinion signer statement serial =>
    "duplicate opinion by signer " ++ signer.text ++ " on statement " ++ statement.text ++
      " (serial " ++ Text.decimalText serial.toNat ++ ")"
  | statementNotFound id => "statement not found: " ++ id.text
  | schemaTooNew found =>
    "schema version " ++ Text.decimalText found ++ " is newer than supported version " ++
      Text.decimalText supportedVersion

def StoreError.toFailure (e : StoreError) : Failure :=
  match e with
  | core cause => .wrapped e.message (.known cause)
  | _ => .foreign e.message

/-- The number of a new row: one above the greatest in use, from 1 on. Above the greatest number of
all there is none, and then the least positive number that is free is taken, if there is one. -/
def freshId (used : List Int64) : Int64 :=
  match used.max? with
  | none => 1
  | some greatest =>
    if greatest < Int64.maxValue then greatest + 1
    else (((List.range (used.length + 1)).map fun n => Int64.ofNat (n + 1)).find? (· ∉ used)).getD 1

namespace StatementRow

/-- What no two statements share. -/
def key (r : StatementRow) : String × String × String × Cell × Cell :=
  (r.name, r.first, r.second.getD "", r.lower.orEmpty, r.upper.orEmpty)

def toRecord (r : StatementRow) : Except Error StatementRecord := do
  let lower ← r.lower.decodeBound
  let upper ← r.upper.decodeBound
  return ⟨r.id, r.name, r.first, r.second, lower, upper⟩

def ofNew (id : StatementId) (s : NewStatement) : StatementRow :=
  ⟨id, s.name, s.first.label, s.second.map Entity.label,
    .ofBound (s.range?.map (·.min)), .ofBound (s.range?.map (·.max))⟩

/-- Statements without a lower bound come first, then all by bounds and number. -/
def scanOrder (a b : StatementRow) : Bool :=
  ((a.lower.compare b.lower).then ((a.upper.compare b.upper).then (compare a.id b.id))).isLE

end StatementRow

namespace OpinionRow

def toOpinion (r : OpinionRow) : Except Error Opinion :=
  let serial := r.serial.toInt
  let certainty := r.certainty.toInt
  if serial < 0 ∨ 0x100000000 ≤ serial then .error (.invalidRecord (.opinionSerial r.id serial))
  else if certainty < Int32.minValue.toInt ∨ Int32.maxValue.toInt < certainty then
    .error (.invalidRecord (.opinionCertainty r.id certainty))
  else match Instant.ofSeconds? r.date.toInt with
    | none => .error (.invalidRecord (.timestampOutOfRange r.date.toInt))
    | some date =>
      .ok ⟨r.id, ⟨r.statementId, r.signerId, date, r.valid ≠ 0, UInt32.ofNat serial.toNat,
        Int32.ofInt certainty, r.comment⟩, r.signature⟩

def ofSigned (id : OpinionId) (o : SignedOpinion) : OpinionRow :=
  ⟨id, o.body.statementId, o.body.signerId, Int64.ofInt o.body.date.seconds,
    if o.body.valid then 1 else 0, Int64.ofNat o.body.serial.toNat,
    Int64.ofInt o.body.certainty.toInt, o.signature, o.body.comment⟩

/-- What no two opinions share. -/
def key (r : OpinionRow) : StatementId × SignerId × Int64 × Int64 :=
  (r.statementId, r.signerId, r.date, r.serial)

end OpinionRow

namespace Tables

def empty : Tables := ⟨[], [], []⟩

def hasStatement (t : Tables) (id : StatementId) : Bool :=
  t.statements.any (·.id = id)

def statementsById (t : Tables) : List StatementRow :=
  t.statements.mergeSort (fun a b => a.id ≤ b.id)

def opinionsById (t : Tables) : List OpinionRow :=
  t.opinions.mergeSort (fun a b => a.id.val ≤ b.id.val)

/-- The records of the rows that can be decoded. -/
def decodeAll (rows : List StatementRow) : List StatementRecord :=
  rows.filterMap fun r => r.toRecord.toOption

def getStatement (t : Tables) (id : StatementId) : Except StoreError (Option StatementRecord) :=
  match t.statements.find? (·.id = id) with
  | none => .ok none
  | some r => (r.toRecord.map some).mapError .core

def findStatements (t : Tables) (name first : String) (second : Option String) :
    List StatementRecord :=
  decodeAll (t.statementsById.filter fun r =>
    r.name = name && r.first = first && r.second = second)

def scanStatements (t : Tables) : List StatementRecord :=
  decodeAll (t.statements.mergeSort StatementRow.scanOrder)

def getOpinions (t : Tables) (id : StatementId) : List Opinion :=
  (t.opinionsById.filter (·.statementId = id)).filterMap fun r => r.toOpinion.toOption

def getHints (t : Tables) (id : StatementId) : Except StoreError Hints :=
  match t.hints.find? (·.statementId = id) with
  | none => .ok ⟨none, none⟩
  | some r => match r.lastUsed with
    | none => .ok ⟨none, r.lastWeight⟩
    | some n => match Instant.ofSeconds? n.toInt with
      | some used => .ok ⟨some used, r.lastWeight⟩
      | none => .error (.core (.invalidRecord (.timestampOutOfRange n.toInt)))

/-- The key of a signer is the first entity of the statement that describes it. -/
def publicKeyFor (t : Tables) (signer : SignerId) : Option PublicKey :=
  (t.statements.find? fun r => r.id = signer.statement && r.name = NewStatement.signerName).bind
    fun r => (PublicKey.parse r.first).toOption

/-- The stored row of a new statement: the one with its very columns if its key is taken, else one
that is added. A row that shares the key but not the columns makes the look-up fail, and nothing is
added when no number is free. -/
def storeRow (t : Tables) (s : NewStatement) : Except StoreError StatementRow × Tables :=
  let asked := StatementRow.ofNew ⟨0⟩ s
  if t.statements.any (·.key = asked.key) then
    match t.statements.find? (fun r => { r with id := ⟨0⟩ } = asked) with
    | some r => (.ok r, t)
    | none => (.error .keyTaken, t)
  else
    let row := StatementRow.ofNew ⟨freshId (t.statements.map (·.id.val))⟩ s
    if t.hasStatement row.id then (.error .keyTaken, t)
    else (.ok row, { t with statements := t.statements ++ [row] })

/-- Stores a statement and reads it back. The row stays even if it turns out to be invalid. -/
def insertStatement (t : Tables) (s : NewStatement) : Except StoreError Statement × Tables :=
  match t.storeRow s with
  | (.error e, t) => (.error e, t)
  | (.ok row, t) => ((row.toRecord.bind Statement.ofRecord).mapError .core, t)

/-- Stores an opinion under its date in whole seconds. -/
def insertOpinion (t : Tables) (o : SignedOpinion) : Except StoreError Opinion × Tables :=
  let body := { o.body with date := o.body.date.wholeSecond }
  let id : OpinionId := ⟨freshId (t.opinions.map (·.id.val))⟩
  let row := OpinionRow.ofSigned id ⟨body, o.signature⟩
  if t.opinions.any (·.id = id) then (.error .keyTaken, t)
  else if t.opinions.any (·.key = row.key) then
    (.error (.duplicateOpinion body.signerId body.statementId body.serial), t)
  else if !t.hasStatement body.statementId then
    (.error (.statementNotFound body.statementId), t)
  else (.ok ⟨id, body, o.signature⟩, { t with opinions := t.opinions ++ [row] })

/-- Removes a statement with its opinions and hints, and tells whether it was there. -/
def purge (t : Tables) (id : StatementId) : Bool × Tables :=
  (t.hasStatement id,
    { statements := t.statements.filter (·.id ≠ id)
      opinions := t.opinions.filter (·.statementId ≠ id)
      hints := t.hints.filter (·.statementId ≠ id) })

def recordHint (t : Tables) (used : Int64) (id : StatementId) (weight : Float) : Tables :=
  let row : HintRow := ⟨id, some used, storedReal weight⟩
  if !t.hasStatement id then t
  else if t.hints.any (·.statementId = id) then
    { t with hints := t.hints.map fun h => if h.statementId = id then row else h }
  else { t with hints := t.hints ++ [row] }

def recordHints (t : Tables) (weights : Std.TreeMap StatementId Float) (usedAt : Instant) :
    Tables :=
  weights.toList.foldl (fun t (id, weight) =>
    t.recordHint (Int64.ofInt usedAt.seconds) id weight) t

end Tables
end Reputation.Store
