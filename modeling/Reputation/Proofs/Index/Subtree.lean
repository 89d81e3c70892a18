import Reputation.Proofs.Index.MaxTree
import Mathlib.Order.Bounds.Defs
/-!
The tree of maxima as a heap: the children of a node have twice its number and one more. Whatever
intervals the tree is rebuilt over, in order or not, each node holds the greatest upper bound in its
subtree, and a search from the root for any limit and point ends after as many steps down as the
tree is high, reads nothing outside, and lists exactly the intervals before the limit that reach
the point.
-/
namespace Reputation

namespace MaxTree

/-- A node with all its descendants. -/
inductive InSubtree (top : Nat) : Nat → Prop where
  | self : InSubtree top top
  | left {node : Nat} (h : InSubtree top node) : InSubtree top (2 * node)
  | right {node : Nat} (h : InSubtree top node) : InSubtree top (2 * node + 1)

theorem InSubtree.trans {top node descendant : Nat} (h : InSubtree top node)
    (h' : InSubtree node descendant) : InSubtree top descendant := by
  induction h' with
  | self => exact h
  | left _ ih => exact ih.left
  | right _ ih => exact ih.right

theorem inSubtree_iff {top node : Nat} : InSubtree top node ↔
    node = top ∨ InSubtree (2 * top) node ∨ InSubtree (2 * top + 1) node := by
  constructor
  · intro h
    induction h with
    | self => exact .inl rfl
    | left _ ih =>
      rcases ih with rfl | h | h
      · exact .inr (.inl .self)
      · exact .inr (.inl h.left)
      · exact .inr (.inr h.left)
    | right _ ih =>
      rcases ih with rfl | h | h
      · exact .inr (.inr .self)
      · exact .inr (.inl h.right)
      · exact .inr (.inr h.right)
  · rintro (rfl | h | h)
    · exact .self
    · exact InSubtree.self.left.trans h
    · exact InSubtree.self.right.trans h

theorem InSubtree.le {top node : Nat} (h : InSubtree top node) : top ≤ node := by
  induction h with
  | self => exact Nat.le_refl top
  | left _ ih => omega
  | right _ ih => omega

theorem inSubtree_leaf_iff {depth height j k : Nat} (hh : height ≤ depth)
    (hj : j < 2 ^ (depth - height)) (hk : k < 2 ^ depth) :
    InSubtree (2 ^ (depth - height) + j) (2 ^ depth + k) ↔
      j * 2 ^ height ≤ k ∧ k < (j + 1) * 2 ^ height := by
  induction height generalizing j with
  | zero =>
    simp only [Nat.sub_zero, pow_zero, Nat.mul_one]
    constructor
    · intro h
      rcases inSubtree_iff.mp h with heq | h | h
      · omega
      · have := h.le
        omega
      · have := h.le
        omega
    · intro h
      obtain rfl : j = k := by omega
      exact .self
  | succ height ih =>
    have hlayer : 2 ^ (depth - height) = 2 * 2 ^ (depth - (height + 1)) := by
      rw [show depth - height = depth - (height + 1) + 1 by omega]
      ring
    have hlow : 2 ^ (depth - height) ≤ 2 ^ depth := Nat.pow_le_pow_right (by decide) (by omega)
    have hleft := ih (j := 2 * j) (by omega) (by omega)
    have hright := ih (j := 2 * j + 1) (by omega) (by omega)
    rw [hlayer, ← Nat.mul_add] at hleft
    rw [hlayer, ← Nat.add_assoc, ← Nat.mul_add] at hright
    rw [inSubtree_iff, hleft, hright, pow_succ]
    have hmid : (2 * j + 1) * 2 ^ height = j * (2 ^ height * 2) + 2 ^ height := by ring
    have hlo : 2 * j * 2 ^ height = j * (2 ^ height * 2) := by ring
    have hhi : (2 * j + 1 + 1) * 2 ^ height = (j + 1) * (2 ^ height * 2) := by ring
    have hend : (j + 1) * (2 ^ height * 2) = j * (2 ^ height * 2) + 2 * 2 ^ height := by ring
    omega

theorem exists_layer {depth node : Nat} (hpos : 0 < node) (hlt : node < 2 ^ (depth + 1)) :
    ∃ height j, height ≤ depth ∧ j < 2 ^ (depth - height) ∧ node = 2 ^ (depth - height) + j := by
  have hlevel : node.log2 < depth + 1 := (Nat.log2_lt (by omega)).mpr hlt
  have hlo : 2 ^ node.log2 ≤ node := Nat.log2_self_le (by omega)
  have hhi : node < 2 ^ node.log2 + 2 ^ node.log2 := by
    have := Nat.lt_log2_self (n := node)
    rw [pow_succ] at this
    omega
  have hsub : depth - (depth - node.log2) = node.log2 := by omega
  refine ⟨depth - node.log2, node - 2 ^ node.log2, by omega, ?_⟩
  rw [hsub]
  omega

/-- The upper bounds of the intervals in a subtree, if there are so many leaves. -/
def uppersUnder (intervals : Array Interval) (leaves node : Nat) : Set Bound :=
  { upper | ∃ position a, intervals[position]? = some a ∧ a.max = upper ∧
    InSubtree node (leaves + position) }

/-- The greatest of some bounds, or `none` if there are none. -/
def IsTop (uppers : Set Bound) : Option Bound → Prop
  | none => uppers = ∅
  | some upper => IsGreatest uppers upper

/-- A heap over intervals: its leaves are the intervals in their order and padding up to the next
power of two, and each node has the greatest upper bound in its subtree. -/
structure IsHeapOver (tree : Array (Option Bound)) (intervals : Array Interval) : Prop where
  vacant : intervals.size = 0 → tree.size = 0
  leaves : 0 < intervals.size → ∃ depth, tree.size = 2 * 2 ^ depth ∧
    intervals.size ≤ 2 ^ depth ∧ 2 ^ depth < 2 * intervals.size
  tops : ∀ node, 0 < node → node < tree.size →
    ∃ top, tree[node]? = some top ∧ IsTop (uppersUnder intervals (tree.size / 2) node) top

theorem mem_uppersUnder_iff {intervals : Array Interval} {depth height j : Nat}
    (hfit : intervals.size ≤ 2 ^ depth) (hh : height ≤ depth) (hj : j < 2 ^ (depth - height))
    (upper : Bound) :
    upper ∈ uppersUnder intervals (2 ^ depth) (2 ^ (depth - height) + j) ↔
      some upper ∈ below (padded (intervals.toList.map (·.max))) height j := by
  rw [mem_leaves_iff]
  have hleaf : ∀ k a, intervals[k]? = some a →
      (InSubtree (2 ^ (depth - height) + j) (2 ^ depth + k) ↔
        j * 2 ^ height ≤ k ∧ k < (j + 1) * 2 ^ height) := by
    intro k a ha
    obtain ⟨hk, -⟩ := Array.getElem?_eq_some_iff.mp ha
    exact inSubtree_leaf_iff hh hj (by omega)
  constructor
  · rintro ⟨k, a, ha, hmax, hsub⟩
    exact ⟨k, a, (hleaf k a ha).mp hsub, by simpa using ha, hmax⟩
  · rintro ⟨k, a, hk, ha, hmax⟩
    rw [Array.getElem?_toList] at ha
    exact ⟨k, a, ha, hmax, (hleaf k a ha).mpr hk⟩

theorem isTop_of_crowns {uppers : Set Bound} {leaves : List (Option Bound)} {top : Option Bound}
    (hmem : ∀ upper, upper ∈ uppers ↔ some upper ∈ leaves) (h : Crowns top leaves) :
    IsTop uppers top := by
  cases top with
  | none =>
    refine Set.eq_empty_iff_forall_notMem.mpr ?_
    intro upper hupper
    exact absurd (h _ ((hmem upper).mp hupper)) (by simp)
  | some top =>
    refine ⟨(hmem top).mpr h.1, ?_⟩
    intro upper hupper
    exact h.2 upper ((hmem upper).mp hupper)

theorem isHeapOver_build (intervals : Array Interval) :
    IsHeapOver (build (intervals.toList.map (·.max))) intervals := by
  have hlength : (intervals.toList.map (·.max)).length = intervals.size := by simp
  rcases Nat.eq_zero_or_pos intervals.size with hzero | hpos
  · have hnil : intervals.toList.map (·.max) = [] :=
      List.eq_nil_of_length_eq_zero (hlength.trans hzero)
    have hvacant : (build (intervals.toList.map (·.max))).size = 0 := by
      rw [hnil]
      rfl
    exact ⟨fun _ => hvacant, fun h => by omega, fun node hnode hlt => by omega⟩
  · have hne : intervals.toList.map (·.max) ≠ [] :=
      List.ne_nil_of_length_pos (hlength.symm ▸ hpos)
    have hsize := size_build hne
    rw [hlength] at hsize
    have hfit := le_two_pow_depthFor intervals.size
    have hhalf : 2 ^ (depthFor intervals.size + 1) / 2 = 2 ^ depthFor intervals.size := by
      rw [pow_succ, Nat.mul_div_cancel _ (by decide)]
    refine ⟨fun h => by omega, fun _ => ?_, ?_⟩
    · exact ⟨_, by rw [hsize]; ring, hfit, two_pow_depthFor_lt hpos⟩
    · intro node hnode hlt
      rw [hsize] at hlt
      obtain ⟨height, j, hh, hj, rfl⟩ := exists_layer hnode hlt
      have hat := build_getElem? hne (hlength.symm ▸ hh) (hlength.symm ▸ hj)
      rw [hlength] at hat
      refine ⟨_, hat, ?_⟩
      rw [hsize, hhalf]
      exact isTop_of_crowns (mem_uppersUnder_iff hfit hh hj) (crowns_highest _)

end MaxTree

/-- Over any intervals, in order or not, the rebuilt tree is a heap. From its root every search whose
limit is not beyond the intervals succeeds with as much fuel as the tree has layers: it ends, it
reads nothing outside, and it lists the intervals before the limit that reach the point. -/
theorem Index.rebuildTree_heap_and_search (ix : Index) :
    MaxTree.IsHeapOver ix.rebuildTree.tree ix.ranged ∧
    ∀ limit p fuel, 1 ≤ limit → limit ≤ ix.ranged.size → ix.rebuildTree.tree.size.log2 ≤ fuel →
      MaxTree.search ix.rebuildTree.tree ix.ranged limit p fuel 1 0
          (ix.rebuildTree.tree.size / 2) =
        some (((ix.ranged.toList.take limit).filter fun a => p ≤ a.max).map (·.id)) := by
  refine ⟨MaxTree.isHeapOver_build ix.ranged, ?_⟩
  intro limit p fuel hlimit hsize hfuel
  have hne : ix.ranged.toList.map (·.max) ≠ [] := by
    apply List.ne_nil_of_length_pos
    rw [List.length_map, Array.length_toList]
    omega
  exact MaxTree.search_root ix.ranged hne limit p rfl hfuel

def Index.unordered : Index :=
  { Index.empty with
    ranged := #[⟨⟨5, by decide⟩, ⟨9, by decide⟩, ⟨1⟩⟩, ⟨⟨1, by decide⟩, ⟨3, by decide⟩, ⟨2⟩⟩,
      ⟨⟨2, by decide⟩, ⟨7, by decide⟩, ⟨3⟩⟩] }

/-- Node 3 lies above the last interval and the padding, and the limit cuts this interval off. -/
theorem Index.rebuildTree_heap_and_search_unordered :
    (unordered.rebuildTree.tree[3]? = some (some ⟨7, by decide⟩) ∧
      IsGreatest (MaxTree.uppersUnder unordered.ranged 4 3) ⟨7, by decide⟩) ∧
    2 ≤ unordered.ranged.size ∧ unordered.rebuildTree.tree.size.log2 ≤ 3 ∧
    MaxTree.search unordered.rebuildTree.tree unordered.ranged 2 ⟨4, by decide⟩ 3 1 0 4 =
      some [⟨1⟩] := by
  have hsize : unordered.rebuildTree.tree.size = 8 := by decide
  have hlimit : 2 ≤ unordered.ranged.size := by decide
  have hfuel : unordered.rebuildTree.tree.size.log2 ≤ 3 := by rw [hsize]; decide
  obtain ⟨hheap, hsearch⟩ := unordered.rebuildTree_heap_and_search
  obtain ⟨top, hnode, htop⟩ := hheap.tops 3 (by decide) (by rw [hsize]; decide)
  have hseven : unordered.rebuildTree.tree[3]? = some (some ⟨7, by decide⟩) := by decide
  obtain rfl := Option.some.inj (hnode.symm.trans hseven)
  have hfound := hsearch 2 ⟨4, by decide⟩ 3 (by decide) hlimit hfuel
  rw [hsize] at htop hfound
  exact ⟨⟨hseven, htop⟩, hlimit, hfuel, hfound⟩

end Reputation
