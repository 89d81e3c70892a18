import Reputation.Address.Range
import Reputation.Id
/-!
A tree of maxima over the upper bounds of intervals, for finding those that reach a point. The tree
is an array: node `i` has the children `2 * i` and `2 * i + 1`, and the second half of the array are
the leaves, padded with `none` to a power of two. A search prunes by the maxima and by a limit on
the positions; it gives `none` if it ever reads outside the tree or the intervals.
-/
namespace Reputation

structure Interval where
  min : Bound
  max : Bound
  id : StatementId
deriving DecidableEq

namespace Interval

/-- By lower bound, then upper bound, then number. -/
def less (a b : Interval) : Bool :=
  a.min < b.min || (a.min = b.min && (a.max < b.max || (a.max = b.max && a.id < b.id)))

end Interval

/-- The first position below `hi` at which `p` fails, if `p` holds up to some position and
nowhere from there on; `fuel` bounds the halvings. -/
def partitionPoint (p : Nat → Bool) : (fuel lo hi : Nat) → Nat
  | 0, lo, _ => lo
  | fuel + 1, lo, hi =>
    if lo < hi then
      let mid := (lo + hi) / 2
      if p mid then partitionPoint p fuel (mid + 1) hi else partitionPoint p fuel lo mid
    else lo

namespace MaxTree

/-- The greater bound, where `none` lies below all. -/
def higher : Option Bound → Option Bound → Option Bound
  | none, b => b
  | a, none => a
  | some a, some b => some (max a b)

def pairUp : List (Option Bound) → List (Option Bound)
  | a :: b :: rest => higher a b :: pairUp rest
  | rest => rest

/-- The `depth` layers above `leaves`, topmost first, and the leaves. -/
def layers : (depth : Nat) → (leaves : List (Option Bound)) → List (Option Bound)
  | 0, leaves => leaves
  | depth + 1, leaves => layers depth (pairUp leaves) ++ leaves

/-- The least depth at which `n` leaves have room. -/
def depthFor (n : Nat) : Nat :=
  if n ≤ 1 then 0 else (n - 1).log2 + 1

/-- The unused entry 0 keeps the numbering of children simple. -/
def build (uppers : List Bound) : Array (Option Bound) :=
  if uppers.isEmpty then #[]
  else
    let depth := depthFor uppers.length
    let leaves := uppers.map some ++ List.replicate ((1 <<< depth) - uppers.length) none
    (none :: layers depth leaves).toArray

/-- The numbers of the intervals in `[lo, hi)` before `limit` whose upper bound is at least `p`,
by position. `node` is the subtree over these positions; `fuel` bounds its height. -/
def search (tree : Array (Option Bound)) (intervals : Array Interval) (limit : Nat) (p : Bound) :
    (fuel node lo hi : Nat) → Option (List StatementId)
  | 0, _, _, _ => none
  | fuel + 1, node, lo, hi =>
    if limit ≤ lo then some []
    else match tree[node]? with
      | none => none
      | some none => some []
      | some (some upper) =>
        if upper < p then some []
        else if hi - lo = 1 then (intervals[lo]?).map fun interval => [interval.id]
        else
          let mid := lo + (hi - lo) / 2
          match search tree intervals limit p fuel (2 * node) lo mid,
              search tree intervals limit p fuel (2 * node + 1) mid hi with
          | some left, some right => some (left ++ right)
          | _, _ => none

end MaxTree
end Reputation
