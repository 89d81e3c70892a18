import Reputation.Index.MaxTree
import Reputation.Statement
import Std.Data.TreeMap
import Std.Data.TreeSet
/-!
The index of statements: ranged statements by their interval, all others by their labels. Intervals
lie in one order with a tree of maxima over it, so a point is found by a binary search for the
intervals that begin early enough and a descent to those that end late enough.
-/
namespace Reputation

abbrev StatementIds := Std.TreeSet StatementId

/-- What the index remembers of a statement, so that it can be taken out again. -/
inductive IndexEntry where
  | ranged (r : AddressRange)
  | exact (labels : List String)
deriving DecidableEq

structure Index where
  ranged : Array Interval
  tree : Array (Option Bound)
  labels : Std.TreeMap String StatementIds
  entries : Std.TreeMap StatementId IndexEntry

namespace Index

def empty : Index := ⟨#[], #[], ∅, ∅⟩

instance : Inhabited Index := ⟨empty⟩

def size (ix : Index) : Nat := ix.entries.size

def isEmpty (ix : Index) : Bool := ix.entries.isEmpty

def contains (ix : Index) (id : StatementId) : Bool := ix.entries.contains id

def isRanged (ix : Index) (id : StatementId) : Bool :=
  match ix.entries[id]? with
  | some (.ranged _) => true
  | _ => false

/-- How many intervals come first that satisfy `p`. -/
def leading (ix : Index) (p : Interval → Bool) : Nat :=
  partitionPoint (fun i => (ix.ranged[i]?).any p) ix.ranged.size 0 ix.ranged.size

/-- The ranged statements whose interval contains the point. -/
def queryPoint (ix : Index) (p : Bound) : StatementIds :=
  let limit := ix.leading (·.min ≤ p)
  if limit = 0 then ∅
  else
    let found := MaxTree.search ix.tree ix.ranged limit p ix.tree.size 1 0 (ix.tree.size / 2)
    .ofList (found.getD [])

/-- The ranged statements whose range covers all of `r`. -/
def queryCovering (ix : Index) (r : AddressRange) : StatementIds :=
  let found := ix.queryPoint r.min
  if r.min = r.max then found
  else found.filter fun id => match ix.entries[id]? with
    | some (.ranged s) => s.covers r
    | _ => false

/-- The statements without a range that name the label. -/
def queryExact (ix : Index) (label : String) : StatementIds :=
  ix.labels.getD label ∅

def rebuildTree (ix : Index) : Index :=
  { ix with tree := MaxTree.build (ix.ranged.toList.map (·.max)) }

def addLabels (m : Std.TreeMap String StatementIds) (id : StatementId) (labels : List String) :
    Std.TreeMap String StatementIds :=
  labels.foldl (fun m l => m.insert l ((m.getD l ∅).insert id)) m

/-- Labels that no statement names any more are taken out. -/
def dropLabels (m : Std.TreeMap String StatementIds) (id : StatementId) (labels : List String) :
    Std.TreeMap String StatementIds :=
  labels.foldl (fun m l => match m[l]? with
    | none => m
    | some ids => if (ids.erase id).isEmpty then m.erase l else m.insert l (ids.erase id)) m

/-- Records a statement without regard to the order of the intervals or to the tree. -/
def put (ix : Index) (s : Statement) : Index :=
  match s.range with
  | some r =>
    { ix with
      ranged := ix.ranged.push ⟨r.min, r.max, s.id⟩
      entries := ix.entries.insert s.id (.ranged r) }
  | none =>
    { ix with
      labels := addLabels ix.labels s.id s.labels
      entries := ix.entries.insert s.id (.exact s.labels) }

/-- Takes out what is recorded of a statement. The tree is left as it was. -/
def forget (ix : Index) (id : StatementId) : Index :=
  match ix.entries[id]? with
  | none => ix
  | some (.ranged r) =>
    let interval : Interval := ⟨r.min, r.max, id⟩
    let position := ix.leading (·.less interval)
    { ix with
      ranged :=
        if ix.ranged[position]? = some interval then ix.ranged.eraseIdxIfInBounds position
        else ix.ranged
      entries := ix.entries.erase id }
  | some (.exact labels) =>
    { ix with
      labels := dropLabels ix.labels id labels
      entries := ix.entries.erase id }

/-- Records statements one after the other and puts the index in order at the end. -/
def ofStatements (statements : List Statement) : Index :=
  let ix := statements.foldl put empty
  { ix with ranged := (ix.ranged.toList.mergeSort fun a b => !b.less a).toArray }.rebuildTree

def insert (ix : Index) (s : Statement) : Index :=
  let wasRanged := ix.isRanged s.id
  let ix := ix.forget s.id
  match s.range with
  | some r =>
    let interval : Interval := ⟨r.min, r.max, s.id⟩
    { ix with
      ranged := ix.ranged.insertIdxIfInBounds (ix.leading (·.less interval)) interval
      entries := ix.entries.insert s.id (.ranged r) }.rebuildTree
  | none =>
    let ix := ix.put s
    if wasRanged then ix.rebuildTree else ix

/-- Takes a statement out, and tells whether it was there. -/
def remove (ix : Index) (id : StatementId) : Index × Bool :=
  let ranged := ix.isRanged id
  let rest := ix.forget id
  (if ranged then rest.rebuildTree else rest, ix.contains id)

def ofRecords (records : List StatementRecord) : Index :=
  ofStatements (records.filterMap fun r => (Statement.ofRecord r).toOption)

end Index
end Reputation
