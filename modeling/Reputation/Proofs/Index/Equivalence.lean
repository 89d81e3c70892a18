import Reputation.Proofs.Index.Agreement
import Mathlib.Logic.Function.Basic
/-!
Indices with the same answers. What an index has recorded settles all that it can be asked, now and
after any further change. Intervals out of order contain no point, so they do not count for that.
-/
namespace Reputation

def Interval.ofStatement? (s : Statement) : Option Interval :=
  s.range.map fun r => ⟨r.min, r.max, s.id⟩

namespace Index

/-- The same answers to everything that an index is asked. -/
structure AnswersAs (ix ix' : Index) : Prop where
  point : ∀ p, (ix.queryPoint p).toList = (ix'.queryPoint p).toList
  covering : ∀ r, (ix.queryCovering r).toList = (ix'.queryCovering r).toList
  labelled : ∀ label, (ix.queryExact label).toList = (ix'.queryExact label).toList
  contains : ∀ id, ix.contains id = ix'.contains id
  size : ix.size = ix'.size

/-- The same entries and labels, and every interval in order as many times. -/
structure SameRecords (ix ix' : Index) : Prop where
  counts : ∀ a : Interval, a.min ≤ a.max → ix.ranged.toList.count a = ix'.ranged.toList.count a
  entries : ∀ id : StatementId, ix.entries[id]? = ix'.entries[id]?
  labels : ∀ (label : String) (id : StatementId),
    id ∈ ix.labels.getD label ∅ ↔ id ∈ ix'.labels.getD label ∅

variable {ix ix' : Index}

theorem toList_eq_of_mem_iff {ids ids' : StatementIds} (h : ∀ id, id ∈ ids ↔ id ∈ ids') :
    ids.toList = ids'.toList :=
  (Std.TreeSet.Equiv.of_forall_mem_iff h).toList_eq

theorem SameRecords.mem_ranged (h : ix.SameRecords ix') {a : Interval} (ha : a.min ≤ a.max) :
    a ∈ ix.ranged.toList ↔ a ∈ ix'.ranged.toList := by
  rw [← List.count_pos_iff, ← List.count_pos_iff, h.counts a ha]

theorem SameRecords.mem_queryPoint (h : ix.SameRecords ix') (hstep : ix.InStep)
    (hstep' : ix'.InStep) (p : Bound) (id : StatementId) :
    id ∈ ix.queryPoint p ↔ id ∈ ix'.queryPoint p := by
  rw [Index.mem_queryPoint hstep, Index.mem_queryPoint hstep']
  constructor
  · rintro ⟨a, ha, hid, hmin, hmax⟩
    exact ⟨a, (h.mem_ranged (Nat.le_trans hmin hmax)).mp ha, hid, hmin, hmax⟩
  · rintro ⟨a, ha, hid, hmin, hmax⟩
    exact ⟨a, (h.mem_ranged (Nat.le_trans hmin hmax)).mpr ha, hid, hmin, hmax⟩

theorem SameRecords.answersAs (h : ix.SameRecords ix') (hstep : ix.InStep) (hstep' : ix'.InStep) :
    ix.AnswersAs ix' := by
  have hpoint := h.mem_queryPoint hstep hstep'
  refine ⟨fun p => toList_eq_of_mem_iff (hpoint p), ?_, ?_, ?_, ?_⟩
  · intro r
    apply toList_eq_of_mem_iff
    intro id
    unfold queryCovering
    by_cases hsingle : r.min = r.max
    · simp only [hsingle, if_true, hpoint]
    · simp only [hsingle, if_false, Std.TreeSet.mem_filter, Std.TreeSet.get_eq, h.entries,
        exists_prop, hpoint]
  · intro label
    exact toList_eq_of_mem_iff (h.labels label)
  · intro id
    rw [contains, contains, Std.TreeMap.contains_eq_isSome_getElem?,
      Std.TreeMap.contains_eq_isSome_getElem?, h.entries]
  · exact (Std.TreeMap.Equiv.of_forall_constGet?_eq h.entries).size_eq

theorem Files.sameRecords {held held' : Held} (h : ix.Files held) (h' : ix'.Files held')
    (heq : ∀ id : StatementId, held[id]? = held'[id]?) : ix.SameRecords ix' := by
  refine ⟨?_, ?_, ?_⟩
  · intro a _
    have hperm : ix.ranged.toList.Perm ix'.ranged.toList := by
      rw [List.perm_ext_iff_of_nodup h.nodup h'.nodup]
      intro b
      rw [h.mem_ranged, h'.mem_ranged, heq]
    exact hperm.count_eq a
  · intro id
    rw [h.entries, h'.entries, heq]
  · intro label id
    rw [h.mem_labels, h'.mem_labels, heq]

/-- The index has recorded these statements and no others. -/
def Holds (ix : Index) (stored : StatementId → Option Statement) : Prop :=
  ∃ held : Held, ix.Agrees held ∧ ∀ id : StatementId, held[id]? = stored id

variable {stored : StatementId → Option Statement}

theorem Holds.insert (h : ix.Holds stored) (s : Statement) :
    (ix.insert s).Holds (Function.update stored s.id (some s)) := by
  obtain ⟨held, hagrees, heq⟩ := h
  refine ⟨held.insert s.id s, agrees_insert hagrees s, ?_⟩
  intro id
  rw [Held.getElem?_insert, Function.update_apply, heq]
  simp only [eq_comm]

theorem Holds.remove (h : ix.Holds stored) (id : StatementId) :
    (ix.remove id).1.Holds (Function.update stored id none) := by
  obtain ⟨held, hagrees, heq⟩ := h
  refine ⟨held.erase id, agrees_remove hagrees id, ?_⟩
  intro x
  rw [Held.getElem?_erase, Function.update_apply, heq]
  simp only [eq_comm]

theorem Holds.contains_eq (h : ix.Holds stored) (id : StatementId) :
    ix.contains id = (stored id).isSome := by
  obtain ⟨held, hagrees, heq⟩ := h
  rw [hagrees.contains_eq, Std.TreeMap.contains_eq_isSome_getElem?, heq]

theorem Holds.answersAs (h : ix.Holds stored) (h' : ix'.Holds stored) : ix.AnswersAs ix' := by
  obtain ⟨held, hagrees, heq⟩ := h
  obtain ⟨held', hagrees', heq'⟩ := h'
  have hsame := hagrees.files.sameRecords hagrees'.files fun id => (heq id).trans (heq' id).symm
  exact hsame.answersAs hagrees.inStep hagrees'.inStep

theorem entries_forget (ix : Index) (id x : StatementId) :
    (ix.forget id).entries[x]? = if id = x then none else ix.entries[x]? := by
  cases he : ix.entries[id]? with
  | none =>
    simp only [forget, he]
    by_cases hid : id = x
    · rw [← hid, he, if_pos rfl]
    · rw [if_neg hid]
  | some entry =>
    cases entry <;> simp [forget, he, Std.TreeMap.getElem?_erase]

theorem toList_ranged_forget_eq (h : Interval.InOrder ix.ranged.toList) (id : StatementId) :
    (ix.forget id).ranged.toList = match ix.entries[id]? with
      | some (.ranged r) => ix.ranged.toList.erase ⟨r.min, r.max, id⟩
      | _ => ix.ranged.toList := by
  cases he : ix.entries[id]? with
  | none => simp only [forget, he]
  | some entry =>
    cases entry with
    | ranged r =>
      simp only [forget, he]
      exact toList_ranged_forget h _
    | exact labels => simp only [forget, he]

theorem mem_labels_forget (ix : Index) (id : StatementId) (label : String) (x : StatementId) :
    x ∈ (ix.forget id).labels.getD label ∅ ↔ x ∈ ix.labels.getD label ∅ ∧
      ¬ ∃ labels, ix.entries[id]? = some (.exact labels) ∧ x = id ∧ label ∈ labels := by
  cases he : ix.entries[id]? with
  | none => simp [forget, he]
  | some entry =>
    cases entry with
    | ranged r => simp [forget, he]
    | exact labels => simp [forget, he, mem_dropLabels]

theorem entries_put (ix : Index) (s : Statement) (x : StatementId) :
    (ix.put s).entries[x]? =
      if s.id = x then some (IndexEntry.ofStatement s) else ix.entries[x]? := by
  cases hr : s.range <;>
    simp [put, IndexEntry.ofStatement, hr, Std.TreeMap.getElem?_insert]

theorem mem_labels_put (ix : Index) (s : Statement) (label : String) (x : StatementId) :
    x ∈ (ix.put s).labels.getD label ∅ ↔
      x ∈ ix.labels.getD label ∅ ∨ (s.id = x ∧ s.range = none ∧ label ∈ s.labels) := by
  cases hr : s.range with
  | some r => simp [put, hr]
  | none => simp [put, hr, mem_addLabels, eq_comm]

theorem toList_ranged_put (ix : Index) (s : Statement) :
    (ix.put s).ranged.toList = ix.ranged.toList ++ (Interval.ofStatement? s).toList := by
  cases hr : s.range <;> simp [put, Interval.ofStatement?, hr]

theorem SameRecords.forget (h : ix.SameRecords ix') (hsorted : Interval.InOrder ix.ranged.toList)
    (hsorted' : Interval.InOrder ix'.ranged.toList) (id : StatementId) :
    (ix.forget id).SameRecords (ix'.forget id) := by
  refine ⟨?_, ?_, ?_⟩
  · intro a ha
    rw [toList_ranged_forget_eq hsorted, toList_ranged_forget_eq hsorted', h.entries]
    split
    · rw [List.count_erase, List.count_erase, h.counts a ha]
    · exact h.counts a ha
  · intro x
    rw [entries_forget, entries_forget, h.entries]
  · intro label x
    rw [mem_labels_forget, mem_labels_forget, h.labels, h.entries]

theorem SameRecords.put (h : ix.SameRecords ix') (s : Statement) :
    (ix.put s).SameRecords (ix'.put s) := by
  refine ⟨?_, ?_, ?_⟩
  · intro a ha
    rw [toList_ranged_put, toList_ranged_put, List.count_append, List.count_append, h.counts a ha]
  · intro x
    rw [entries_put, entries_put, h.entries]
  · intro label x
    rw [mem_labels_put, mem_labels_put, h.labels]

theorem SameRecords.reorder (h : ix.SameRecords ix') {ranged ranged' : Array Interval}
    (hp : ranged.toList.Perm ix.ranged.toList) (hp' : ranged'.toList.Perm ix'.ranged.toList)
    (tree tree' : Array (Option Bound)) :
    SameRecords { ix with ranged, tree } { ix' with ranged := ranged', tree := tree' } := by
  refine ⟨?_, h.entries, h.labels⟩
  intro a ha
  rw [hp.count_eq, hp'.count_eq, h.counts a ha]

theorem remove_eq_forget (ix : Index) (id : StatementId) :
    ∃ tree, (ix.remove id).1 = { ix.forget id with tree } := by
  by_cases hr : ix.isRanged id
  · exact ⟨_, by simp only [remove, hr, if_true, rebuildTree]; rfl⟩
  · exact ⟨_, by simp only [remove, hr]; rfl⟩

inductive Change where
  | insert (s : Statement)
  | remove (id : StatementId)

def change (ix : Index) : Change → Index
  | .insert s => ix.insert s
  | .remove id => (ix.remove id).1

def follow (ix : Index) (cs : List Change) : Index := cs.foldl change ix

theorem inStep_change (h : ix.InStep) (c : Change) : (ix.change c).InStep := by
  cases c with
  | insert s => exact inStep_insert h s
  | remove id => exact inStep_remove h id

theorem SameRecords.change (h : ix.SameRecords ix') (hstep : ix.InStep) (hstep' : ix'.InStep)
    (c : Change) : (ix.change c).SameRecords (ix'.change c) := by
  cases c with
  | insert s =>
    obtain ⟨ranged, tree, hp, heq⟩ := insert_eq_put hstep.sorted s
    obtain ⟨ranged', tree', hp', heq'⟩ := insert_eq_put hstep'.sorted s
    rw [Index.change, Index.change, heq, heq']
    exact ((h.forget hstep.sorted hstep'.sorted s.id).put s).reorder hp hp' tree tree'
  | remove id =>
    obtain ⟨tree, heq⟩ := ix.remove_eq_forget id
    obtain ⟨tree', heq'⟩ := ix'.remove_eq_forget id
    rw [Index.change, Index.change, heq, heq']
    exact (h.forget hstep.sorted hstep'.sorted id).reorder (.refl _) (.refl _) tree tree'

/-- Indices with the same records stay so, and no query ever tells them apart. -/
theorem SameRecords.answersAs_follow (h : ix.SameRecords ix') (hstep : ix.InStep)
    (hstep' : ix'.InStep) (cs : List Change) : (ix.follow cs).AnswersAs (ix'.follow cs) := by
  induction cs generalizing ix ix' with
  | nil => exact h.answersAs hstep hstep'
  | cons c cs ih =>
    exact ih (h.change hstep hstep' c) (inStep_change hstep c) (inStep_change hstep' c)

end Index
end Reputation
