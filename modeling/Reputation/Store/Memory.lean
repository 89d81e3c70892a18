import Reputation.Resolution.Collaborators
/-!
A store in memory. It files what it is given without looking at it: statements by their number,
opinions in the order of arrival, and opinions that were filed under another statement than their
own after the others.
-/
namespace Reputation.Store

structure Memory where
  statements : Std.TreeMap StatementId StatementRecord := ∅
  opinions : List Opinion := []
  misfiled : List (StatementId × Opinion) := []
  keys : Std.TreeMap SignerId PublicKey := ∅
  hints : Std.TreeMap StatementId Float := ∅

namespace Memory

def findStatements (m : Memory) (name first : String) (second : Option String) :
    List StatementRecord :=
  m.statements.values.filter fun r =>
    r.name = name && r.firstEntity = first && r.secondEntity = second

/-- Records without a lower bound come first, then all by lower bound and number. -/
def scanOrder (a b : StatementRecord) : Bool :=
  match a.lower, b.lower with
  | none, none => a.id ≤ b.id
  | none, some _ => true
  | some _, none => false
  | some l, some m => l < m || (l = m && a.id ≤ b.id)

def scanStatements (m : Memory) : List StatementRecord :=
  m.statements.values.mergeSort scanOrder

def getOpinions (m : Memory) (id : StatementId) : List Opinion :=
  m.opinions.filter (·.body.statementId = id) ++
    (m.misfiled.filter (·.1 = id)).map (·.2)

/-- One above the greatest number, from 1 on. -/
def freshStatement (m : Memory) : StatementId :=
  match m.statements.maxKey? with
  | none => ⟨1⟩
  | some greatest => ⟨greatest.val + 1⟩

def freshOpinion (m : Memory) : OpinionId :=
  match (m.opinions.map (·.id.val)).max? with
  | none => ⟨1⟩
  | some greatest => ⟨if greatest < 0 then 1 else greatest + 1⟩

/-- The record of a new statement, stored if there is none like it. -/
def storeRecord (m : Memory) (s : NewStatement) : StatementRecord × Memory :=
  let asked (id : StatementId) : StatementRecord :=
    ⟨id, s.name, s.first.label, s.second.map Entity.label,
      s.range?.map (·.min), s.range?.map (·.max)⟩
  match m.statements.values.find? fun r => r = asked r.id with
  | some r => (r, m)
  | none =>
    let id := m.freshStatement
    (asked id, { m with statements := m.statements.insert id (asked id) })

/-- A record that turns out to be invalid stays stored. -/
def insertStatement (m : Memory) (s : NewStatement) : Reply Statement × Memory :=
  let (record, m) := m.storeRecord s
  match Statement.ofRecord record with
  | .ok statement => (.answer statement, m)
  | .error e => (.failure (.wrapped ("core: " ++ e.message) (.known e)), m)

def insertOpinion (m : Memory) (o : SignedOpinion) : Opinion × Memory :=
  let opinion : Opinion := ⟨m.freshOpinion, o.body, o.signature⟩
  (opinion, { m with opinions := m.opinions ++ [opinion] })

def recordHints (m : Memory) (weights : Std.TreeMap StatementId Float) : Memory :=
  { m with hints := weights.toList.foldl (fun h (id, weight) => h.insert id weight) m.hints }

end Memory
end Reputation.Store
