import Reputation.Store.Tables
/-!
The layouts that databases have had, and how each is brought to the next one. Opening migrates step
by step up to the supported layout; a database of a later layout is refused and left alone.
-/
namespace Reputation.Store

/-- A statement of the first layout: up to four entities and no bounds. -/
structure SlottedRow where
  id : StatementId
  name : String
  first : String
  second : Option String
  third : Option String
  fourth : Option String
deriving DecidableEq

/-- A statement of the second layout, which has bounds as well. -/
structure RangedRow extends SlottedRow where
  lower : Cell
  upper : Cell
deriving DecidableEq

inductive Database where
  | blank
  | slotted (statements : List SlottedRow) (opinions : List OpinionRow)
  | ranged (statements : List RangedRow) (opinions : List OpinionRow)
  | current (tables : Tables)
  | newer (version : Nat)
deriving DecidableEq

/-- What no two statements of the first two layouts share. -/
def SlottedRow.key (r : SlottedRow) : String × String × String × String × String :=
  (r.name, r.first, r.second.getD "", r.third.getD "", r.fourth.getD "")

/-- The bounds are those of the first entity, if its label denotes an address or a network. -/
def SlottedRow.withBounds (r : SlottedRow) : RangedRow :=
  let range := (Entity.parse r.first).toOption.bind Entity.range?
  { r with lower := .ofBound (range.map (·.min)), upper := .ofBound (range.map (·.max)) }

def RangedRow.withoutSlots (r : RangedRow) : StatementRow :=
  ⟨r.id, r.name, r.first, r.second, r.lower, r.upper⟩

/-- Of rows that share a key the one with the least number survives. -/
def survivors (rows : List StatementRow) : List StatementRow :=
  rows.filter fun r => !rows.any fun older => older.id < r.id && older.key = r.key

/-- Takes the opinions along with the rows that were dropped. Opinions that referred to no row
before stay. -/
def keepOpinions (rows kept : List StatementRow) (opinions : List OpinionRow) : List OpinionRow :=
  opinions.filter fun o => !rows.any (·.id = o.statementId) || kept.any (·.id = o.statementId)

namespace Database

def version : Database → Nat
  | blank => 0
  | slotted _ _ => 1
  | ranged _ _ => 2
  | current _ => supportedVersion
  | newer v => v

/-- The next layout. The last one demands unique keys of the rows that survived. -/
def step : Database → Except StoreError Database
  | blank => .ok (slotted [] [])
  | slotted rows opinions => .ok (ranged (rows.map SlottedRow.withBounds) opinions)
  | ranged rows opinions =>
    let rows := rows.map RangedRow.withoutSlots
    let kept := survivors rows
    if (kept.map (·.key)).Nodup then .ok (current ⟨kept, keepOpinions rows kept opinions, []⟩)
    else .error .keyTaken
  | db => .ok db

/-- Each step is committed before the next one begins. -/
def steps : Nat → Database → Except StoreError Database
  | 0, db => .ok db
  | n + 1, db => db.step.bind (steps n)

def migrate (db : Database) : Except StoreError Database :=
  db.steps supportedVersion

def load (db : Database) : Except StoreError Tables :=
  match db.migrate with
  | .ok (current tables) => .ok tables
  | .ok other => .error (.schemaTooNew other.version)
  | .error e => .error e

/-- Whether the rows are such as the tables of the layout admit. -/
def isKeyed : Database → Bool
  | blank => true
  | slotted rows opinions =>
    (rows.map (·.id)).Nodup && (rows.map (·.key)).Nodup && opinionsKeyed opinions
  | ranged rows opinions =>
    (rows.map (·.id)).Nodup && (rows.map (·.key)).Nodup && opinionsKeyed opinions
  | current t =>
    (t.statements.map (·.id)).Nodup && (t.statements.map (·.key)).Nodup &&
      opinionsKeyed t.opinions && (t.hints.map (·.statementId)).Nodup
  | newer _ => true
where
  opinionsKeyed (opinions : List OpinionRow) : Bool :=
    (opinions.map (·.id)).Nodup && (opinions.map (·.key)).Nodup

end Database
end Reputation.Store
