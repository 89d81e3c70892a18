import Reputation.Address.BoundText
import Reputation.Bytes
import Reputation.Store.RealText
/-!
Values of table columns. A column of text keeps numbers as their decimal text, so it only ever
holds texts, blobs and nulls, in the order null, text, blob. Texts are in the encoding of the
database, UTF-8: other bytes that are stored under the type of texts are not among the values.
-/
namespace Reputation.Store

inductive Column where
  | null
  | int (n : Int64)
  | real (x : Float)
  | text (s : String)
  | blob (bytes : Bytes)
deriving DecidableEq

inductive Cell where
  | null
  | text (s : String)
  | blob (bytes : Bytes)
deriving DecidableEq

/-- A float that is not a number counts as null. -/
def Column.stored : Column → Cell
  | null => .null
  | int n => .text (Text.integerText n.toInt)
  | real x => if x.isNaN then .null else .text (realText x)
  | text s => .text s
  | blob b => .blob b

/-- What a column of floats holds: no value for what is not a number, and one zero. -/
def storedReal (x : Float) : Option Float :=
  if x.isNaN then none else if x == 0.0 then some 0.0 else some x

/-- Bounds are texts, or integers that an older writer left behind. -/
def Column.decodeBound : Column → Except Error (Option Bound)
  | null => .ok none
  | text s => (Bound.parse s).map some
  | int n => (Bound.ofInteger n).map some
  | real _ => .error (.invalidRecord (.boundColumnType "Real"))
  | blob _ => .error (.invalidRecord (.boundColumnType "Blob"))

namespace Cell

def toColumn : Cell → Column
  | null => .null
  | text s => .text s
  | blob b => .blob b

def decodeBound (c : Cell) : Except Error (Option Bound) :=
  c.toColumn.decodeBound

def ofBound : Option Bound → Cell
  | none => null
  | some b => text b.text

/-- Null counts as the empty text where uniqueness is decided. -/
def orEmpty : Cell → Cell
  | null => text ""
  | c => c

/-- Texts are compared by code points, which is the order of their bytes. -/
def compare : Cell → Cell → Ordering
  | null, null => .eq
  | null, _ => .lt
  | _, null => .gt
  | text a, text b => Ord.compare a b
  | text _, blob _ => .lt
  | blob _, text _ => .gt
  | blob a, blob b => Ord.compare a b

end Cell
end Reputation.Store
