import Reputation.Proofs.Index.MaxTree
/-!
The intervals stay in order, and the tree of maxima belongs to them. Both survive every change of
the index, also where statements with the same number were recorded twice; and while they hold, a
point finds exactly the recorded intervals that contain it.
-/
namespace Reputation

theorem Interval.less_of_not_less {a b x : Interval} (h : ¬ b.less a) (k : b.less x) :
    a.less x := by
  rw [less_iff] at *
  omega

theorem Interval.not_less_trans {a b c : Interval} (h : ¬ b.less a) (k : ¬ c.less b) :
    ¬ c.less a := by
  rw [less_iff] at *
  omega

theorem falling_less {intervals : List Interval} (h : Interval.InOrder intervals)
    (x : Interval) : Falling (·.less x) intervals :=
  h.imp fun hab => Interval.less_of_not_less hab

theorem falling_min_le {intervals : List Interval} (h : Interval.InOrder intervals)
    (p : Bound) : Falling (fun a => decide (a.min ≤ p)) intervals := by
  refine h.imp ?_
  intro a b hab hb
  have := Interval.min_le_of_not_less hab
  exact decide_eq_true (Nat.le_trans this (of_decide_eq_true hb))

namespace Index

structure InStep (ix : Index) : Prop where
  sorted : Interval.InOrder ix.ranged.toList
  tree_eq : ix.tree = MaxTree.build (ix.ranged.toList.map (·.max))

theorem mem_queryPoint {ix : Index} (h : ix.InStep) (p : Bound) (id : StatementId) :
    id ∈ ix.queryPoint p ↔ ∃ a ∈ ix.ranged.toList, a.id = id ∧ a.min ≤ p ∧ p ≤ a.max := by
  have htake := ix.take_leading (falling_min_le h.sorted p)
  have hfound : id ∈ ((ix.ranged.toList.take (ix.leading (·.min ≤ p))).filter
      fun a => p ≤ a.max).map (·.id) ↔
        ∃ a ∈ ix.ranged.toList, a.id = id ∧ a.min ≤ p ∧ p ≤ a.max := by
    rw [htake]
    simp only [List.mem_map, List.mem_filter, decide_eq_true_eq]
    constructor
    · rintro ⟨a, ⟨⟨ha, hmin⟩, hmax⟩, rfl⟩
      exact ⟨a, ha, rfl, hmin, hmax⟩
    · rintro ⟨a, ha, rfl, hmin, hmax⟩
      exact ⟨a, ⟨⟨ha, hmin⟩, hmax⟩, rfl⟩
  rw [← hfound]
  unfold queryPoint
  by_cases hzero : ix.leading (·.min ≤ p) = 0
  · simp [hzero]
  · have hne : ix.ranged.toList.map (·.max) ≠ [] := by
      intro hnil
      rw [List.map_eq_nil_iff.mp hnil, List.take_nil] at htake
      have hempty : ix.ranged.toList = [] ++ [] := List.map_eq_nil_iff.mp hnil
      exact hzero (ix.leading_of_append hempty (by simp) (by simp))
    simp only [hzero, if_false,
      MaxTree.search_root ix.ranged hne _ p h.tree_eq (Nat.log2_le_self _)]
    simp

theorem exists_split {intervals : List Interval} (h : Interval.InOrder intervals) (x : Interval) :
    ∃ front back, intervals = front ++ back ∧ (∀ a ∈ front, a.less x) ∧
      ∀ a ∈ back, ¬ a.less x :=
  ⟨_, _, (filter_append_filter (falling_less h x)).symm, by simp, by simp⟩

theorem insertIdx_length {α : Type} (front back : List α) (x : α) :
    (front ++ back).insertIdx front.length x = front ++ x :: back := by
  induction front with
  | nil => simp
  | cons a front ih => simpa using ih

section Splice

variable {ix : Index} {x : Interval} {front back : List Interval}

theorem toList_insert_leading (h : ix.ranged.toList = front ++ back) (hf : ∀ a ∈ front, a.less x)
    (hb : ∀ a ∈ back, ¬ a.less x) :
    (ix.ranged.insertIdxIfInBounds (ix.leading (·.less x)) x).toList = front ++ x :: back := by
  have hins := List.insertIdxIfInBounds_toArray ix.ranged.toList (ix.leading (·.less x)) x
  rw [Array.toArray_toList] at hins
  rw [hins, ix.leading_of_append h hf hb, h, insertIdx_length]

theorem getElem?_leading (h : ix.ranged.toList = front ++ back) (hf : ∀ a ∈ front, a.less x)
    (hb : ∀ a ∈ back, ¬ a.less x) : ix.ranged[ix.leading (·.less x)]? = back.head? := by
  rw [ix.leading_of_append h hf hb, ← Array.getElem?_toList, h,
    List.getElem?_append_right (Nat.le_refl _), Nat.sub_self, List.head?_eq_getElem?]

theorem toList_erase_leading (h : ix.ranged.toList = front ++ back) (hf : ∀ a ∈ front, a.less x)
    (hb : ∀ a ∈ back, ¬ a.less x) :
    (ix.ranged.eraseIdxIfInBounds (ix.leading (·.less x))).toList = front ++ back.tail := by
  rw [Array.toList_eraseIdxIfInBounds, ix.leading_of_append h hf hb, h,
    List.eraseIdx_append_of_length_le (Nat.le_refl _), Nat.sub_self, List.eraseIdx_zero]

end Splice

theorem head?_eq_of_mem {back : List Interval} {x : Interval} (h : Interval.InOrder back)
    (hb : ∀ a ∈ back, ¬ a.less x) (hx : x ∈ back) : back.head? = some x := by
  cases back with
  | nil => simp at hx
  | cons y back =>
    rcases List.mem_cons.mp hx with rfl | hx
    · rfl
    · have hy := (List.pairwise_cons.mp h).1 x hx
      rw [Interval.eq_of_not_less hy (hb y List.mem_cons_self)]
      rfl

theorem toList_ranged_forget {ix : Index} (h : Interval.InOrder ix.ranged.toList)
    (x : Interval) :
    (if ix.ranged[ix.leading (·.less x)]? = some x then
      ix.ranged.eraseIdxIfInBounds (ix.leading (·.less x)) else ix.ranged).toList =
        ix.ranged.toList.erase x := by
  obtain ⟨front, back, hsplit, hf, hb⟩ := exists_split h x
  have hfront : x ∉ front := fun hx => Interval.less_irrefl x (hf x hx)
  have hback : Interval.InOrder back := by
    unfold Interval.InOrder at h
    rw [hsplit, List.pairwise_append] at h
    exact h.2.1
  rw [getElem?_leading hsplit hf hb]
  by_cases hx : back.head? = some x
  · obtain ⟨rest, rfl⟩ := List.head?_eq_some_iff.mp hx
    rw [if_pos hx, toList_erase_leading hsplit hf hb, hsplit, List.erase_append_right _ hfront]
    simp
  · have hnone : x ∉ back := fun hmem => hx (head?_eq_of_mem hback hb hmem)
    rw [if_neg hx, List.erase_of_not_mem]
    rw [hsplit]
    exact fun hmem => (List.mem_append.mp hmem).elim hfront hnone

theorem inOrder_insert {front back : List Interval} {x : Interval}
    (h : Interval.InOrder (front ++ back)) (hf : ∀ a ∈ front, a.less x)
    (hb : ∀ a ∈ back, ¬ a.less x) : Interval.InOrder (front ++ x :: back) := by
  obtain ⟨hfront, hback, hcross⟩ := List.pairwise_append.mp h
  refine List.pairwise_append.mpr ⟨hfront, List.pairwise_cons.mpr ⟨hb, hback⟩, ?_⟩
  intro a ha b hb'
  rcases List.mem_cons.mp hb' with rfl | hb'
  · exact Interval.less_asymm (hf a ha)
  · exact hcross a ha b hb'

theorem inStep_rebuildTree {ix : Index} (h : Interval.InOrder ix.ranged.toList) :
    ix.rebuildTree.InStep := ⟨h, rfl⟩

theorem inOrder_mergeSort (intervals : List Interval) :
    Interval.InOrder (intervals.mergeSort fun a b => !b.less a) := by
  have hsorted : (intervals.mergeSort fun a b => !b.less a).Pairwise fun a b => !b.less a := by
    refine List.pairwise_mergeSort ?_ ?_ intervals
    · intro a b c hab hbc
      simp only [Bool.not_eq_true', Bool.eq_false_iff] at *
      exact Interval.not_less_trans hab hbc
    · intro a b
      simp only [Bool.or_eq_true, Bool.not_eq_true', Bool.eq_false_iff]
      by_cases hba : b.less a
      · exact Or.inr (Interval.less_asymm hba)
      · exact Or.inl hba
  exact hsorted.imp fun hab => by simpa using hab

theorem inStep_ofStatements (statements : List Statement) : (ofStatements statements).InStep :=
  inStep_rebuildTree (by simpa using inOrder_mergeSort _)

theorem inOrder_forget {ix : Index} (h : Interval.InOrder ix.ranged.toList) (id : StatementId) :
    Interval.InOrder (ix.forget id).ranged.toList := by
  unfold forget
  split
  · exact h
  · rw [toList_ranged_forget h]
    exact List.Pairwise.erase _ h
  · exact h

/-- Forgetting what is not ranged leaves the tree in step, which is why it need not be rebuilt. -/
theorem forget_of_not_ranged {ix : Index} {id : StatementId} (h : ix.isRanged id = false) :
    (ix.forget id).ranged = ix.ranged ∧ (ix.forget id).tree = ix.tree := by
  unfold isRanged at h
  unfold forget
  split
  · exact ⟨rfl, rfl⟩
  · simp_all
  · exact ⟨rfl, rfl⟩

theorem inStep_forget {ix : Index} {id : StatementId} (h : ix.InStep)
    (hr : ix.isRanged id = false) : (ix.forget id).InStep := by
  obtain ⟨hranged, htree⟩ := forget_of_not_ranged hr
  constructor
  · rw [hranged]
    exact h.sorted
  · rw [hranged, htree]
    exact h.tree_eq

theorem inStep_insert {ix : Index} (h : ix.InStep) (s : Statement) : (ix.insert s).InStep := by
  have hsorted := inOrder_forget h.sorted s.id
  unfold insert
  split
  · next r hr =>
    obtain ⟨front, back, hsplit, hf, hb⟩ := exists_split hsorted ⟨r.min, r.max, s.id⟩
    apply inStep_rebuildTree
    rw [toList_insert_leading hsplit hf hb]
    exact inOrder_insert (hsplit ▸ hsorted) hf hb
  · next hr =>
    have hput : ((ix.forget s.id).put s).ranged = (ix.forget s.id).ranged ∧
        ((ix.forget s.id).put s).tree = (ix.forget s.id).tree := by simp [put, hr]
    by_cases hwas : ix.isRanged s.id
    · simp only [hwas, if_true]
      apply inStep_rebuildTree
      rw [hput.1]
      exact hsorted
    · have hkept := inStep_forget h (Bool.eq_false_iff.mpr hwas)
      simp only [hwas]
      exact ⟨hput.1 ▸ hkept.sorted, hput.1 ▸ hput.2 ▸ hkept.tree_eq⟩

theorem inStep_remove {ix : Index} (h : ix.InStep) (id : StatementId) :
    (ix.remove id).1.InStep := by
  unfold remove
  by_cases hr : ix.isRanged id
  · simp only [hr, if_true]
    exact inStep_rebuildTree (inOrder_forget h.sorted id)
  · simp only [hr]
    exact inStep_forget h (Bool.eq_false_iff.mpr hr)

/-- The states of an index: built from any statements, numbers repeated or not, and then changed. -/
inductive Reachable : Index → Prop where
  | ofStatements (statements : List Statement) : Reachable (ofStatements statements)
  | insert {ix : Index} (s : Statement) : Reachable ix → Reachable (ix.insert s)
  | remove {ix : Index} (id : StatementId) : Reachable ix → Reachable (ix.remove id).1

theorem Reachable.inStep {ix : Index} (h : ix.Reachable) : ix.InStep := by
  induction h with
  | ofStatements statements => exact inStep_ofStatements statements
  | insert s _ ih => exact inStep_insert ih s
  | remove id _ ih => exact inStep_remove ih id

end Index
end Reputation
