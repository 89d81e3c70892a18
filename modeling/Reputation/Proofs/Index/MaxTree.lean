import Reputation.Proofs.Index.Search
import Mathlib.Tactic.Ring
/-!
The tree of maxima. Every node is the greatest of the leaves below it, and `none` only above
padding; this is what lets a search prune. A search from any node lists exactly the intervals below
it that lie before the limit and reach the point, and never reads outside the tree or the intervals.
-/
namespace Reputation

theorem Bound.value_max (a b : Bound) : (max a b).value = max a.value b.value := by
  change (if a.value ≤ b.value then b else a).value = _
  split <;> omega

theorem Bound.max_assoc (a b c : Bound) : max (max a b) c = max a (max b c) := by
  apply Bound.ext
  simp only [Bound.value_max, Nat.max_assoc]

namespace MaxTree

@[simp] theorem higher_none (a : Option Bound) : higher a none = a := by cases a <;> rfl

theorem higher_assoc (a b c : Option Bound) :
    higher (higher a b) c = higher a (higher b c) := by
  cases a <;> cases b <;> cases c <;> simp [higher, Bound.max_assoc]

/-- The greatest of the leaves, where `none` stands for padding. -/
def highest (leaves : List (Option Bound)) : Option Bound := leaves.foldr higher none

/-- What it means to be the greatest: padding only crowns padding. -/
def Crowns : Option Bound → List (Option Bound) → Prop
  | none, leaves => ∀ leaf ∈ leaves, leaf = none
  | some top, leaves => some top ∈ leaves ∧ ∀ b, some b ∈ leaves → b ≤ top

theorem crowns_higher {a top : Option Bound} {leaves : List (Option Bound)}
    (h : Crowns top leaves) : Crowns (higher a top) (a :: leaves) := by
  cases a with
  | none =>
    cases top with
    | none => simpa [Crowns, higher] using h
    | some top => simpa [Crowns, higher] using h
  | some a =>
    cases top with
    | none =>
      refine ⟨List.mem_cons_self, ?_⟩
      intro b hb
      rcases List.mem_cons.mp hb with heq | hb
      · exact Option.some.inj heq ▸ Nat.le_refl b.value
      · exact absurd (h _ hb) (by simp)
    | some top =>
      have hle : a.value ≤ (max a top).value ∧ top.value ≤ (max a top).value := by
        rw [Bound.value_max]
        omega
      constructor
      · change some (if a.value ≤ top.value then top else a) ∈ _
        split
        · exact List.mem_cons_of_mem _ h.1
        · exact List.mem_cons_self
      · intro b hb
        rcases List.mem_cons.mp hb with heq | hb
        · exact Option.some.inj heq ▸ hle.1
        · exact Nat.le_trans (h.2 b hb) hle.2

theorem crowns_highest (leaves : List (Option Bound)) : Crowns (highest leaves) leaves := by
  induction leaves with
  | nil => simp [Crowns, highest]
  | cons leaf leaves ih => exact crowns_higher ih

theorem highest_pairUp (leaves : List (Option Bound)) :
    highest (pairUp leaves) = highest leaves := by
  fun_induction pairUp leaves with
  | case1 a b rest ih =>
    simp only [highest, List.foldr_cons] at ih ⊢
    rw [ih, higher_assoc]
  | case2 => rfl

theorem pairUp_drop (n : Nat) (leaves : List (Option Bound)) :
    pairUp (leaves.drop (2 * n)) = (pairUp leaves).drop n := by
  induction n generalizing leaves with
  | zero => rfl
  | succ n ih =>
    rw [show 2 * (n + 1) = 2 * n + 1 + 1 by ring]
    match leaves with
    | [] => simp [pairUp]
    | [_] => simp [pairUp]
    | a :: b :: rest => simpa [pairUp] using ih rest

theorem pairUp_take (n : Nat) (leaves : List (Option Bound)) (h : 2 * n ≤ leaves.length) :
    pairUp (leaves.take (2 * n)) = (pairUp leaves).take n := by
  induction n generalizing leaves with
  | zero => rfl
  | succ n ih =>
    rw [show 2 * (n + 1) = 2 * n + 1 + 1 by ring] at h ⊢
    match leaves with
    | [] => simp at h
    | [_] => simp at h
    | a :: b :: rest =>
      simp only [List.length_cons] at h
      simpa [pairUp] using ih rest (by omega)

theorem length_pairUp {n : Nat} {leaves : List (Option Bound)} (h : leaves.length = 2 * n) :
    (pairUp leaves).length = n := by
  induction n generalizing leaves with
  | zero => simp_all [pairUp]
  | succ n ih =>
    match leaves with
    | [] => simp at h
    | [_] => simp at h; omega
    | a :: b :: rest =>
      simp only [List.length_cons] at h
      have hrest : rest.length = 2 * n := by omega
      simpa [pairUp] using ih hrest

theorem length_layers (depth : Nat) {leaves : List (Option Bound)}
    (h : leaves.length = 2 ^ depth) : (layers depth leaves).length + 1 = 2 ^ (depth + 1) := by
  induction depth generalizing leaves with
  | zero => simp [layers, h]
  | succ depth ih =>
    have hpow : 2 ^ (depth + 1) = 2 * 2 ^ depth := by ring
    have := ih (length_pairUp (h.trans hpow))
    simp only [layers, List.length_append]
    rw [pow_succ 2 (depth + 1)]
    omega

/-- The leaves below the `j`-th node of the layer that lies `height` above them. -/
def below {α : Type} (leaves : List α) (height j : Nat) : List α :=
  (leaves.drop (j * 2 ^ height)).take (2 ^ height)

theorem below_pairUp {height j : Nat} {leaves : List (Option Bound)}
    (h : (j + 1) * 2 ^ (height + 1) ≤ leaves.length) :
    below (pairUp leaves) height j = pairUp (below leaves (height + 1) j) := by
  have hstart : j * 2 ^ (height + 1) = 2 * (j * 2 ^ height) := by ring
  have hsize : 2 ^ (height + 1) = 2 * 2 ^ height := by ring
  unfold below
  rw [hstart, hsize, pairUp_take, pairUp_drop]
  rw [List.length_drop, ← hstart, ← hsize]
  rw [Nat.add_mul, Nat.one_mul] at h
  omega

theorem layers_getElem? (depth height j : Nat) {leaves : List (Option Bound)}
    (hlen : leaves.length = 2 ^ depth) (hh : height ≤ depth) (hj : j < 2 ^ (depth - height)) :
    (none :: layers depth leaves)[2 ^ (depth - height) + j]? =
      some (highest (below leaves height j)) := by
  induction depth generalizing height leaves with
  | zero =>
    obtain rfl : height = 0 := by omega
    obtain rfl : j = 0 := by simpa using hj
    obtain ⟨leaf, rfl⟩ := List.length_eq_one_iff.mp hlen
    cases leaf <;> rfl
  | succ depth ih =>
    have hpow : 2 ^ (depth + 1) = 2 * 2 ^ depth := by ring
    have hpairs := length_pairUp (hlen.trans hpow)
    have htop := length_layers depth hpairs
    have hcons : none :: layers (depth + 1) leaves =
        (none :: layers depth (pairUp leaves)) ++ leaves := rfl
    cases height with
    | zero =>
      simp only [Nat.sub_zero] at hj ⊢
      have hleaf : j < leaves.length := by omega
      rw [hcons, List.getElem?_append_right (by simp only [List.length_cons]; omega)]
      have hat : 2 ^ (depth + 1) + j - (none :: layers depth (pairUp leaves)).length = j := by
        simp only [List.length_cons]
        omega
      rw [hat, List.getElem?_eq_getElem hleaf]
      simp [below, highest, List.take_one, List.head?_drop, List.getElem?_eq_getElem hleaf]
    | succ height =>
      rw [Nat.add_sub_add_right] at hj ⊢
      have hle : height ≤ depth := by omega
      have hsub : 2 ^ (depth - height) * 2 ^ (height + 1) = 2 ^ (depth + 1) := by
        rw [← pow_add]
        congr 1
        omega
      have hbelow : (j + 1) * 2 ^ (height + 1) ≤ leaves.length := by
        rw [hlen, ← hsub]
        exact Nat.mul_le_mul_right _ hj
      have hhalf : 2 ^ (depth - height) ≤ 2 ^ depth := Nat.pow_le_pow_right (by decide) (by omega)
      rw [hcons, List.getElem?_append_left (by simp only [List.length_cons]; omega),
        ih height hpairs hle hj, below_pairUp hbelow, highest_pairUp]

theorem le_two_pow_depthFor (n : Nat) : n ≤ 2 ^ depthFor n := by
  unfold depthFor
  split
  · simpa using ‹n ≤ 1›
  · have := Nat.lt_log2_self (n := n - 1)
    omega

theorem two_pow_depthFor_lt {n : Nat} (h : 0 < n) : 2 ^ depthFor n < 2 * n := by
  unfold depthFor
  split
  · rw [pow_zero]
    omega
  · have := Nat.log2_self_le (n := n - 1) (by omega)
    rw [pow_succ]
    omega

/-- The leaves: the bounds and then padding up to a power of two. -/
def padded (uppers : List Bound) : List (Option Bound) :=
  uppers.map some ++ List.replicate (2 ^ depthFor uppers.length - uppers.length) none

theorem length_padded (uppers : List Bound) :
    (padded uppers).length = 2 ^ depthFor uppers.length := by
  have := le_two_pow_depthFor uppers.length
  simp only [padded, List.length_append, List.length_map, List.length_replicate]
  omega

theorem build_eq {uppers : List Bound} (h : uppers ≠ []) :
    build uppers = (none :: layers (depthFor uppers.length) (padded uppers)).toArray := by
  simp [build, padded, h, Nat.one_shiftLeft]

theorem size_build {uppers : List Bound} (h : uppers ≠ []) :
    (build uppers).size = 2 ^ (depthFor uppers.length + 1) := by
  rw [build_eq h, List.size_toArray, List.length_cons]
  exact length_layers _ (length_padded uppers)

/-- The `j`-th node of the layer `height` above the leaves is the greatest of the leaves below it. -/
theorem build_getElem? {uppers : List Bound} (h : uppers ≠ []) {height j : Nat}
    (hh : height ≤ depthFor uppers.length) (hj : j < 2 ^ (depthFor uppers.length - height)) :
    (build uppers)[2 ^ (depthFor uppers.length - height) + j]? =
      some (highest (below (padded uppers) height j)) := by
  rw [build_eq h, List.getElem?_toArray]
  exact layers_getElem? _ height j (length_padded uppers) hh hj

theorem below_succ {α : Type} (xs : List α) (height j : Nat) :
    below xs (height + 1) j = below xs height (2 * j) ++ below xs height (2 * j + 1) := by
  have hsize : 2 ^ (height + 1) = 2 ^ height + 2 ^ height := by ring
  have hleft : j * 2 ^ (height + 1) = 2 * j * 2 ^ height := by ring
  have hright : (2 * j + 1) * 2 ^ height = 2 * j * 2 ^ height + 2 ^ height := by ring
  unfold below
  rw [hleft, hsize, List.take_add, List.drop_drop, ← hright]

theorem mem_below_iff {α : Type} {xs : List α} {height j : Nat} {x : α} :
    x ∈ below xs height j ↔
      ∃ k, (j * 2 ^ height ≤ k ∧ k < (j + 1) * 2 ^ height) ∧ xs[k]? = some x := by
  have hend : (j + 1) * 2 ^ height = j * 2 ^ height + 2 ^ height := by ring
  rw [below, List.mem_iff_getElem?, hend]
  constructor
  · rintro ⟨i, hi⟩
    rw [List.getElem?_take, List.getElem?_drop, Option.ite_none_right_eq_some] at hi
    exact ⟨_, ⟨Nat.le_add_right _ i, Nat.add_lt_add_left hi.1 _⟩, hi.2⟩
  · rintro ⟨k, ⟨hlo, hhi⟩, hx⟩
    refine ⟨k - j * 2 ^ height, ?_⟩
    rw [List.getElem?_take_of_lt (by omega), List.getElem?_drop, Nat.add_sub_cancel' hlo, hx]

theorem getElem?_padded_eq_some_iff {uppers : List Bound} {k : Nat} {upper : Bound} :
    (padded uppers)[k]? = some (some upper) ↔ uppers[k]? = some upper := by
  rcases Nat.lt_or_ge k uppers.length with hk | hk
  · rw [padded, List.getElem?_append_left (by simpa using hk)]
    simp
  · rw [padded, List.getElem?_append_right (by simpa using hk), List.getElem?_replicate]
    simp [hk]

theorem mem_leaves_iff {intervals : List Interval} {height j : Nat} {upper : Bound} :
    some upper ∈ below (padded (intervals.map (·.max))) height j ↔
      ∃ k a, (j * 2 ^ height ≤ k ∧ k < (j + 1) * 2 ^ height) ∧ intervals[k]? = some a ∧
        a.max = upper := by
  simp only [mem_below_iff, getElem?_padded_eq_some_iff, List.getElem?_map,
    Option.map_eq_some_iff, exists_and_left]

theorem mem_leaves_of_mem_below {intervals : List Interval} {limit height j : Nat} {a : Interval}
    (h : a ∈ below (intervals.take limit) height j) :
    some a.max ∈ below (padded (intervals.map (·.max))) height j := by
  obtain ⟨k, hk, ha⟩ := mem_below_iff.mp h
  rw [List.getElem?_take, Option.ite_none_right_eq_some] at ha
  exact mem_leaves_iff.mpr ⟨k, a, hk, ha.2, rfl⟩

theorem getElem?_of_leaf {intervals : List Interval} {j : Nat} {upper : Bound}
    (h : some upper ∈ below (padded (intervals.map (·.max))) 0 j) :
    ∃ a, intervals[j]? = some a ∧ a.max = upper := by
  obtain ⟨k, a, hk, ha⟩ := mem_leaves_iff.mp h
  rw [pow_zero, Nat.mul_one, Nat.mul_one] at hk
  obtain rfl : j = k := by omega
  exact ⟨a, ha⟩

/-- What a search below the node is to find. -/
def reaching (intervals : List Interval) (limit : Nat) (p : Bound) (height j : Nat) :
    List StatementId :=
  ((below (intervals.take limit) height j).filter fun a => p ≤ a.max).map (·.id)

/-- The search turns back: the limit is passed, or nothing below reaches the point. -/
def Pruned (limit : Nat) (p : Bound) (lo : Nat) (top : Option Bound) : Prop :=
  limit ≤ lo ∨ ∀ upper, top = some upper → upper < p

theorem reaching_of_limit_le {intervals : List Interval} {limit height j : Nat} {p : Bound}
    (h : limit ≤ j * 2 ^ height) : reaching intervals limit p height j = [] := by
  have : (intervals.take limit).drop (j * 2 ^ height) = [] := by
    rw [List.drop_eq_nil_iff, List.length_take]
    omega
  simp [reaching, below, this]

theorem reaching_of_highest {intervals : List Interval} {limit height j : Nat} {p : Bound}
    (h : ∀ upper, highest (below (padded (intervals.map (·.max))) height j) = some upper →
      upper < p) : reaching intervals limit p height j = [] := by
  have htop := crowns_highest (below (padded (intervals.map (·.max))) height j)
  refine List.map_eq_nil_iff.mpr (List.filter_eq_nil_iff.mpr ?_)
  intro a ha hp
  have hleaf := mem_leaves_of_mem_below ha
  cases hc : highest (below (padded (intervals.map (·.max))) height j) with
  | none =>
    rw [hc] at htop
    exact absurd (htop _ hleaf) (by simp)
  | some upper =>
    rw [hc] at htop
    exact Nat.not_lt.mpr (Nat.le_trans (of_decide_eq_true hp) (htop.2 _ hleaf)) (h upper hc)

theorem reaching_of_pruned {intervals : List Interval} {limit height j : Nat} {p : Bound}
    (h : Pruned limit p (j * 2 ^ height)
      (highest (below (padded (intervals.map (·.max))) height j))) :
    reaching intervals limit p height j = [] := by
  rcases h with h | h
  · exact reaching_of_limit_le h
  · exact reaching_of_highest h

theorem reaching_succ (intervals : List Interval) (limit : Nat) (p : Bound) (height j : Nat) :
    reaching intervals limit p (height + 1) j =
      reaching intervals limit p height (2 * j) ++ reaching intervals limit p height (2 * j + 1) := by
  simp [reaching, below_succ]

theorem reaching_zero {intervals : List Interval} {limit j : Nat} {p : Bound} {a : Interval}
    (hj : j < limit) (ha : intervals[j]? = some a) (hp : p ≤ a.max) :
    reaching intervals limit p 0 j = [a.id] := by
  have : (intervals.take limit)[j]? = some a := by rw [List.getElem?_take_of_lt hj, ha]
  simp [reaching, below, List.take_one, List.head?_drop, this, hp]

section Step

variable {tree : Array (Option Bound)} {intervals : Array Interval} {limit : Nat} {p : Bound}
variable {fuel node lo hi : Nat}

theorem search_of_pruned {top : Option Bound} (hnode : tree[node]? = some top)
    (h : Pruned limit p lo top) :
    search tree intervals limit p (fuel + 1) node lo hi = some [] := by
  rw [search, hnode]
  by_cases hl : limit ≤ lo
  · rw [if_pos hl]
  · rw [if_neg hl]
    cases top with
    | none => rfl
    | some upper => exact if_pos ((h.resolve_left hl) upper rfl)

theorem search_of_open {upper : Bound} (hnode : tree[node]? = some (some upper))
    (hl : lo < limit) (hp : p ≤ upper) :
    search tree intervals limit p (fuel + 1) node lo hi =
      if hi - lo = 1 then (intervals[lo]?).map fun interval => [interval.id]
      else
        match search tree intervals limit p fuel (2 * node) lo (lo + (hi - lo) / 2),
            search tree intervals limit p fuel (2 * node + 1) (lo + (hi - lo) / 2) hi with
        | some left, some right => some (left ++ right)
        | _, _ => none := by
  rw [search, hnode, if_neg (Nat.not_le.mpr hl)]
  exact if_neg (Nat.not_lt.mpr hp)

theorem exists_of_not_pruned {top : Option Bound} (h : ¬ Pruned limit p lo top) :
    lo < limit ∧ ∃ upper, top = some upper ∧ p ≤ upper := by
  unfold Pruned at h
  push Not at h
  obtain ⟨hl, upper, htop, hp⟩ := h
  exact ⟨hl, upper, htop, Nat.not_lt.mp hp⟩

end Step

/-- The induction is on the height of the node; the fuel only has to exceed it. -/
theorem search_eq (intervals : Array Interval) (hne : intervals.toList.map (·.max) ≠ [])
    (limit : Nat) (p : Bound) {depth : Nat}
    (hd : depth = depthFor (intervals.toList.map (·.max)).length) (height j fuel : Nat)
    (hh : height ≤ depth) (hj : j < 2 ^ (depth - height)) (hfuel : height < fuel) :
    search (build (intervals.toList.map (·.max))) intervals limit p fuel (2 ^ (depth - height) + j)
      (j * 2 ^ height) (j * 2 ^ height + 2 ^ height) =
        some (reaching intervals.toList limit p height j) := by
  induction height generalizing j fuel with
  | zero =>
    obtain ⟨fuel, rfl⟩ : ∃ f, fuel = f + 1 := ⟨fuel - 1, by omega⟩
    have hnode := build_getElem? hne (hd ▸ hh) (hd ▸ hj)
    rw [← hd] at hnode
    by_cases hprune : Pruned limit p (j * 2 ^ 0)
        (highest (below (padded (intervals.toList.map (·.max))) 0 j))
    · rw [search_of_pruned hnode hprune, reaching_of_pruned hprune]
    · obtain ⟨hl, upper, htop, hp⟩ := exists_of_not_pruned hprune
      have hcrown := crowns_highest (below (padded (intervals.toList.map (·.max))) 0 j)
      rw [htop] at hnode hcrown
      obtain ⟨a, ha, rfl⟩ := getElem?_of_leaf hcrown.1
      rw [search_of_open hnode hl hp]
      simp only [pow_zero, Nat.mul_one, Nat.add_sub_cancel_left, if_true] at hl ⊢
      rw [reaching_zero hl ha hp, ← Array.getElem?_toList, ha, Option.map_some]
  | succ height ih =>
    obtain ⟨fuel, rfl⟩ : ∃ f, fuel = f + 1 := ⟨fuel - 1, by omega⟩
    have hnode := build_getElem? hne (hd ▸ hh) (hd ▸ hj)
    rw [← hd] at hnode
    by_cases hprune : Pruned limit p (j * 2 ^ (height + 1))
        (highest (below (padded (intervals.toList.map (·.max))) (height + 1) j))
    · rw [search_of_pruned hnode hprune, reaching_of_pruned hprune]
    · obtain ⟨hl, upper, htop, hp⟩ := exists_of_not_pruned hprune
      rw [htop] at hnode
      have hwidth : 2 ^ (height + 1) = 2 * 2 ^ height := by ring
      have hpos := Nat.two_pow_pos height
      have hlayer : 2 ^ (depth - height) = 2 * 2 ^ (depth - (height + 1)) := by
        rw [show depth - height = depth - (height + 1) + 1 by omega]
        ring
      have hleft := ih (2 * j) fuel (by omega) (by omega) (by omega)
      have hright := ih (2 * j + 1) fuel (by omega) (by omega) (by omega)
      have hlo : 2 * j * 2 ^ height = j * 2 ^ (height + 1) := by ring
      have hmid : (2 * j + 1) * 2 ^ height = j * 2 ^ (height + 1) + 2 ^ height := by ring
      rw [search_of_open hnode hl hp, Nat.add_sub_cancel_left, if_neg (by omega), hwidth,
        Nat.mul_div_cancel_left _ (by decide), ← hwidth]
      rw [hlo, hlayer, ← Nat.mul_add] at hleft
      rw [hmid, hlayer, ← Nat.add_assoc, ← Nat.mul_add, Nat.add_assoc (j * 2 ^ (height + 1)),
        ← Nat.two_mul, ← hwidth] at hright
      rw [hleft, hright, reaching_succ]

theorem search_root (intervals : Array Interval) (hne : intervals.toList.map (·.max) ≠ [])
    (limit : Nat) (p : Bound) {tree : Array (Option Bound)} {fuel : Nat}
    (htree : tree = build (intervals.toList.map (·.max))) (hfuel : tree.size.log2 ≤ fuel) :
    search tree intervals limit p fuel 1 0 (tree.size / 2) =
      some (((intervals.toList.take limit).filter fun a => p ≤ a.max).map (·.id)) := by
  have hsize := size_build hne
  have hfit := le_two_pow_depthFor (intervals.toList.map (·.max)).length
  rw [htree, hsize, Nat.log2_two_pow] at hfuel
  have hroot := search_eq intervals hne limit p rfl _ 0 fuel (Nat.le_refl _) (by simp) hfuel
  have hall : below (intervals.toList.take limit)
      (depthFor (intervals.toList.map (·.max)).length) 0 = intervals.toList.take limit := by
    have hlen : (intervals.toList.take limit).length ≤
        2 ^ depthFor (intervals.toList.map (·.max)).length := by
      rw [List.length_map] at hfit ⊢
      exact Nat.le_trans (List.length_take_le' ..) hfit
    simp only [below, Nat.zero_mul, List.drop_zero]
    exact List.take_of_length_le hlen
  have hhalf : tree.size / 2 = 2 ^ depthFor (intervals.toList.map (·.max)).length := by
    rw [htree, hsize, pow_succ, Nat.mul_div_cancel _ (by decide)]
  simp only [reaching, hall, Nat.sub_self, pow_zero, Nat.add_zero, Nat.zero_mul, Nat.zero_add,
    ← htree] at hroot
  rw [hhalf, hroot]

end MaxTree
end Reputation
