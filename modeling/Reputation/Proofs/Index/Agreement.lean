import Reputation.Proofs.Index.Order
/-!
What an index has recorded. An index files a set of statements when its entries, its intervals and
its labels all say the same about every number. Recording and forgetting one statement changes all
three together, in whatever order statements come and go.
-/
namespace Reputation

/-- The statements that an index is to hold, by their numbers. -/
abbrev Held := Std.TreeMap StatementId Statement

theorem Interval.eq_mk_iff (a : Interval) (r : AddressRange) (id : StatementId) :
    a = ⟨r.min, r.max, id⟩ ↔ a.id = id ∧ r = ⟨a.min, a.max⟩ := by
  constructor
  · rintro rfl
    exact ⟨rfl, rfl⟩
  · rintro ⟨rfl, rfl⟩
    rfl

theorem Held.getElem?_insert (held : Held) (s : Statement) (id : StatementId) :
    (held.insert s.id s)[id]? = if s.id = id then some s else held[id]? := by
  rw [Std.TreeMap.getElem?_insert]
  simp only [Std.LawfulEqCmp.compare_eq_iff_eq]

theorem Held.getElem?_erase (held : Held) (id x : StatementId) :
    (held.erase id)[x]? = if id = x then none else held[x]? := by
  rw [Std.TreeMap.getElem?_erase]
  simp only [Std.LawfulEqCmp.compare_eq_iff_eq]

theorem Held.exists_insert {held : Held} {s : Statement} (hnew : held[s.id]? = none)
    {id : StatementId} {P : Statement → Prop} :
    (∃ t, (held.insert s.id s)[id]? = some t ∧ P t) ↔
      (id = s.id ∧ P s) ∨ ∃ t, held[id]? = some t ∧ P t := by
  rw [getElem?_insert]
  by_cases hid : s.id = id
  · subst hid
    simp [hnew]
  · simp [hid, Ne.symm hid]

theorem Held.exists_erase {held : Held} {id x : StatementId} {P : Statement → Prop} :
    (∃ t, (held.erase id)[x]? = some t ∧ P t) ↔ x ≠ id ∧ ∃ t, held[x]? = some t ∧ P t := by
  rw [getElem?_erase]
  by_cases hid : id = x
  · simp [hid]
  · simp [hid, Ne.symm hid]

/-- All of the statements, where a later one takes the place of an earlier one. -/
def Held.ofStatements (statements : List Statement) : Held :=
  statements.foldl (fun held s => held.insert s.id s) ∅

theorem Held.getElem?_foldl_insert (held : Held) (statements : List Statement)
    (distinct : (statements.map (·.id)).Nodup) (id : StatementId) :
    (statements.foldl (fun held s => held.insert s.id s) held)[id]? =
      (statements.find? fun s => s.id = id).or held[id]? := by
  induction statements generalizing held with
  | nil => simp
  | cons s statements ih =>
    rw [List.map_cons, List.nodup_cons] at distinct
    rw [List.foldl_cons, ih _ distinct.2, getElem?_insert]
    by_cases hid : s.id = id
    · have hnone : statements.find? (fun t => t.id = id) = none := by
        rw [List.find?_eq_none]
        intro t ht heq
        exact distinct.1 (hid.trans (of_decide_eq_true heq).symm ▸ List.mem_map_of_mem ht)
      simp [hid, hnone]
    · simp [hid]

theorem Held.getElem?_ofStatements (statements : List Statement)
    (distinct : (statements.map (·.id)).Nodup) (id : StatementId) :
    (ofStatements statements)[id]? = statements.find? fun s => s.id = id := by
  rw [ofStatements, getElem?_foldl_insert _ _ distinct]
  simp

theorem Held.size_foldl_insert (held : Held) (statements : List Statement)
    (distinct : (statements.map (·.id)).Nodup) (hnew : ∀ s ∈ statements, held[s.id]? = none) :
    (statements.foldl (fun held s => held.insert s.id s) held).size =
      held.size + statements.length := by
  induction statements generalizing held with
  | nil => rfl
  | cons s statements ih =>
    rw [List.map_cons, List.nodup_cons] at distinct
    have hothers : ∀ x ∈ statements, (held.insert s.id s)[x.id]? = none := by
      intro x hx
      have hid : s.id ≠ x.id := fun heq => distinct.1 (heq ▸ List.mem_map_of_mem hx)
      rw [getElem?_insert, if_neg hid]
      exact hnew x (List.mem_cons_of_mem _ hx)
    have habsent : held.contains s.id = false := by
      rw [Std.TreeMap.contains_eq_isSome_getElem?, hnew s List.mem_cons_self]
      rfl
    rw [List.foldl_cons, ih _ distinct.2 hothers, Std.TreeMap.size_insert, habsent,
      List.length_cons]
    simp only [Bool.false_eq_true, if_false]
    omega

theorem Held.size_ofStatements {statements : List Statement}
    (distinct : (statements.map (·.id)).Nodup) : (ofStatements statements).size = statements.length := by
  rw [ofStatements, size_foldl_insert ∅ statements distinct (by simp)]
  simp

def IndexEntry.ofStatement (s : Statement) : IndexEntry :=
  match s.range with
  | some r => .ranged r
  | none => .exact s.labels

theorem IndexEntry.ofStatement_ranged {s : Statement} {r : AddressRange} :
    ofStatement s = .ranged r ↔ s.range = some r := by
  unfold ofStatement
  split <;> simp_all

theorem IndexEntry.ofStatement_exact {s : Statement} {labels : List String} :
    ofStatement s = .exact labels ↔ s.range = none ∧ s.labels = labels := by
  unfold ofStatement
  split <;> simp_all

namespace Index

/-! ## Labels -/

section Labels

variable {m : Std.TreeMap String StatementIds} {id x : StatementId} {label : String}

theorem mem_addLabels (labels : List String) :
    x ∈ (addLabels m id labels).getD label ∅ ↔
      x ∈ m.getD label ∅ ∨ (x = id ∧ label ∈ labels) := by
  induction labels generalizing m with
  | nil => simp [addLabels]
  | cons first labels ih =>
    have hstep : addLabels m id (first :: labels) =
        addLabels (m.insert first ((m.getD first ∅).insert id)) id labels := rfl
    rw [hstep, ih, Std.TreeMap.getD_insert]
    by_cases hl : first = label
    · subst hl
      simp only [Std.ReflCmp.compare_self, if_true, Std.TreeSet.mem_insert,
        Std.LawfulEqCmp.compare_eq_iff_eq, List.mem_cons, true_or, and_true]
      rw [eq_comm (a := id)]
      tauto
    · have hne : compare first label ≠ .eq := fun h => hl (Std.LawfulEqCmp.eq_of_compare h)
      simp [hne, Ne.symm hl]

def dropLabel (m : Std.TreeMap String StatementIds) (id : StatementId) (label : String) :
    Std.TreeMap String StatementIds :=
  match m[label]? with
  | none => m
  | some ids => if (ids.erase id).isEmpty then m.erase label else m.insert label (ids.erase id)

theorem dropLabels_cons (first : String) (labels : List String) :
    dropLabels m id (first :: labels) = dropLabels (dropLabel m id first) id labels :=
  rfl

theorem mem_dropLabel (first : String) :
    x ∈ (dropLabel m id first).getD label ∅ ↔
      x ∈ m.getD label ∅ ∧ ¬ (x = id ∧ label = first) := by
  unfold dropLabel
  by_cases hl : first = label
  · subst hl
    cases hm : m[first]? with
    | none => simp [Std.TreeMap.getD_eq_getD_getElem?, hm]
    | some ids =>
      have herase : x ∈ ids.erase id ↔ x ∈ ids ∧ ¬ x = id := by
        rw [Std.TreeSet.mem_erase, ne_eq, Std.LawfulEqCmp.compare_eq_iff_eq, eq_comm (a := id)]
        exact and_comm
      by_cases he : (ids.erase id).isEmpty
      · have hnone := Std.TreeSet.isEmpty_iff_forall_not_mem.mp he x
        rw [herase] at hnone
        simpa [he, Std.TreeMap.getD_eq_getD_getElem?, hm] using hnone
      · simpa [he, Std.TreeMap.getD_eq_getD_getElem?, hm] using herase
  · have hne : compare first label ≠ .eq := fun h => hl (Std.LawfulEqCmp.eq_of_compare h)
    cases hm : m[first]? with
    | none => simp [Ne.symm hl]
    | some ids =>
      by_cases he : (ids.erase id).isEmpty
      · simp only [he, if_true]
        rw [Std.TreeMap.getD_erase, if_neg hne]
        simp [Ne.symm hl]
      · simp only [he, Bool.false_eq_true, if_false]
        rw [Std.TreeMap.getD_insert, if_neg hne]
        simp [Ne.symm hl]

theorem mem_dropLabels (labels : List String) :
    x ∈ (dropLabels m id labels).getD label ∅ ↔
      x ∈ m.getD label ∅ ∧ ¬ (x = id ∧ label ∈ labels) := by
  induction labels generalizing m with
  | nil => simp [dropLabels]
  | cons first labels ih =>
    rw [dropLabels_cons, ih, mem_dropLabel]
    simp only [List.mem_cons]
    tauto

end Labels

/-! ## Recording and forgetting -/

/-- What is recorded, apart from the order of the intervals and from the tree. -/
structure Files (ix : Index) (held : Held) : Prop where
  nodup : ix.ranged.toList.Nodup
  mem_ranged : ∀ a, a ∈ ix.ranged.toList ↔
    ∃ s, held[a.id]? = some s ∧ s.range = some ⟨a.min, a.max⟩
  entries : ∀ id : StatementId, ix.entries[id]? = held[id]?.map IndexEntry.ofStatement
  mem_labels : ∀ (label : String) (id : StatementId), id ∈ ix.labels.getD label ∅ ↔
    ∃ s, held[id]? = some s ∧ s.range = none ∧ label ∈ s.labels

theorem Files.congr {ix : Index} {held held' : Held} (h : ix.Files held)
    (heq : ∀ id : StatementId, held'[id]? = held[id]?) : ix.Files held' := by
  refine ⟨h.nodup, ?_, ?_, ?_⟩
  · intro a
    rw [heq]
    exact h.mem_ranged a
  · intro id
    rw [heq]
    exact h.entries id
  · intro label id
    rw [heq]
    exact h.mem_labels label id

theorem Files.reorder {ix : Index} {held : Held} (h : ix.Files held) {ranged : Array Interval}
    (hp : ranged.toList.Perm ix.ranged.toList) (tree : Array (Option Bound)) :
    Files { ix with ranged, tree } held :=
  ⟨hp.nodup_iff.mpr h.nodup, fun a => hp.mem_iff.trans (h.mem_ranged a), h.entries, h.mem_labels⟩

theorem empty_files : empty.Files ∅ := by
  refine ⟨List.nodup_nil, ?_, ?_, ?_⟩ <;> simp [empty]

section Record

variable {ix : Index} {held : Held} {s : Statement} {r : AddressRange} {id : StatementId}

theorem Files.entries_insert (h : ix.Files held) (s : Statement) (id : StatementId) :
    (ix.entries.insert s.id (IndexEntry.ofStatement s))[id]? =
      (held.insert s.id s)[id]?.map IndexEntry.ofStatement := by
  rw [Held.getElem?_insert, Std.TreeMap.getElem?_insert, h.entries]
  by_cases hid : s.id = id
  · simp [hid]
  · simp [hid]

theorem Files.entries_erase (h : ix.Files held) (id x : StatementId) :
    (ix.entries.erase id)[x]? = (held.erase id)[x]?.map IndexEntry.ofStatement := by
  rw [Held.getElem?_erase, Std.TreeMap.getElem?_erase, h.entries]
  by_cases hid : id = x
  · simp [hid]
  · simp [hid]

theorem files_put_ranged (h : ix.Files held) (hnew : held[s.id]? = none) (hr : s.range = some r) :
    Files { ix with
      ranged := ix.ranged.push ⟨r.min, r.max, s.id⟩
      entries := ix.entries.insert s.id (.ranged r) } (held.insert s.id s) := by
  have hfresh : (⟨r.min, r.max, s.id⟩ : Interval) ∉ ix.ranged.toList := by
    intro hmem
    obtain ⟨t, ht, -⟩ := (h.mem_ranged _).mp hmem
    rw [hnew] at ht
    cases ht
  refine ⟨?_, ?_, ?_, ?_⟩
  · rw [Array.toList_push, List.perm_append_comm.nodup_iff]
    exact List.nodup_cons.mpr ⟨hfresh, h.nodup⟩
  · intro a
    rw [Array.toList_push, List.mem_append, List.mem_singleton, h.mem_ranged,
      Held.exists_insert hnew, or_comm, hr, Option.some.injEq, Interval.eq_mk_iff]
  · intro id
    rw [← IndexEntry.ofStatement_ranged.mpr hr]
    exact h.entries_insert s id
  · intro label id
    rw [h.mem_labels, Held.exists_insert hnew]
    simp [hr]

theorem files_put_exact (h : ix.Files held) (hnew : held[s.id]? = none) (hr : s.range = none) :
    Files { ix with
      labels := addLabels ix.labels s.id s.labels
      entries := ix.entries.insert s.id (.exact s.labels) } (held.insert s.id s) := by
  refine ⟨h.nodup, ?_, ?_, ?_⟩
  · intro a
    rw [h.mem_ranged, Held.exists_insert hnew]
    simp [hr]
  · intro id
    rw [← IndexEntry.ofStatement_exact.mpr ⟨hr, rfl⟩]
    exact h.entries_insert s id
  · intro label id
    rw [mem_addLabels, h.mem_labels, Held.exists_insert hnew, or_comm]
    simp [hr]

theorem files_put (h : ix.Files held) (hnew : held[s.id]? = none) :
    (ix.put s).Files (held.insert s.id s) := by
  unfold put
  cases hr : s.range with
  | some r => exact files_put_ranged h hnew hr
  | none => exact files_put_exact h hnew hr

theorem files_forget_ranged (h : ix.Files held) (hs : held[id]? = some s) (hr : s.range = some r)
    {ranged : Array Interval} (herase : ranged.toList = ix.ranged.toList.erase ⟨r.min, r.max, id⟩) :
    Files { ix with ranged, entries := ix.entries.erase id } (held.erase id) := by
  refine ⟨?_, ?_, h.entries_erase id, ?_⟩
  · rw [herase]
    exact List.Nodup.erase _ h.nodup
  · intro a
    rw [herase, List.Nodup.mem_erase_iff h.nodup, h.mem_ranged, Held.exists_erase]
    refine and_congr_left ?_
    rintro ⟨t, ht, hrange⟩
    rw [ne_eq, Interval.eq_mk_iff]
    constructor
    · rintro hne rfl
      rw [hs] at ht
      obtain rfl := Option.some.inj ht
      exact hne ⟨rfl, Option.some.inj (hr.symm.trans hrange)⟩
    · intro hne heq
      exact hne heq.1
  · intro label x
    rw [h.mem_labels, Held.exists_erase, iff_and_self]
    rintro ⟨t, ht, hnone, -⟩ rfl
    rw [hs] at ht
    obtain rfl := Option.some.inj ht
    rw [hr] at hnone
    cases hnone

theorem files_forget_exact (h : ix.Files held) (hs : held[id]? = some s) (hr : s.range = none) :
    Files { ix with
      labels := dropLabels ix.labels id s.labels
      entries := ix.entries.erase id } (held.erase id) := by
  refine ⟨h.nodup, ?_, h.entries_erase id, ?_⟩
  · intro a
    rw [h.mem_ranged, Held.exists_erase, iff_and_self]
    rintro ⟨t, ht, hrange⟩ rfl
    rw [hs] at ht
    obtain rfl := Option.some.inj ht
    rw [hr] at hrange
    cases hrange
  · intro label x
    rw [mem_dropLabels, h.mem_labels, Held.exists_erase, and_comm]
    refine and_congr_left ?_
    rintro ⟨t, ht, -, hlabel⟩
    constructor
    · rintro hkept rfl
      rw [hs] at ht
      obtain rfl := Option.some.inj ht
      exact hkept ⟨rfl, hlabel⟩
    · intro hne hgone
      exact hne hgone.1

theorem files_forget (h : ix.Files held) (hsorted : Interval.InOrder ix.ranged.toList)
    (id : StatementId) : (ix.forget id).Files (held.erase id) := by
  have hentry := h.entries id
  unfold forget
  cases hs : held[id]? with
  | none =>
    rw [hs, Option.map_none] at hentry
    simp only [hentry]
    refine h.congr ?_
    intro x
    rw [Held.getElem?_erase]
    by_cases hid : id = x
    · simp [← hid, hs]
    · simp [hid]
  | some s =>
    rw [hs, Option.map_some] at hentry
    cases he : IndexEntry.ofStatement s with
    | ranged r =>
      simp only [hentry, he]
      exact files_forget_ranged h hs (IndexEntry.ofStatement_ranged.mp he)
        (toList_ranged_forget hsorted _)
    | exact labels =>
      obtain ⟨hr, rfl⟩ := IndexEntry.ofStatement_exact.mp he
      simp only [hentry, he]
      exact files_forget_exact h hs hr

end Record

/-- The index is in step with itself and has recorded the statements that it is to hold. -/
structure Agrees (ix : Index) (held : Held) : Prop where
  inStep : ix.InStep
  files : ix.Files held

theorem insert_eq_put {ix : Index} (hsorted : Interval.InOrder ix.ranged.toList) (s : Statement) :
    ∃ ranged tree, ranged.toList.Perm ((ix.forget s.id).put s).ranged.toList ∧
      ix.insert s = { (ix.forget s.id).put s with ranged, tree } := by
  cases hr : s.range with
  | some r =>
    obtain ⟨front, back, hsplit, hf, hb⟩ :=
      exists_split (inOrder_forget hsorted s.id) ⟨r.min, r.max, s.id⟩
    refine ⟨_, _, ?_, by simp only [insert, put, hr, rebuildTree]; rfl⟩
    rw [toList_insert_leading hsplit hf hb]
    simp only [put, hr, Array.toList_push, hsplit, List.append_assoc]
    exact List.Perm.append_left _ (List.perm_append_singleton _ _).symm
  | none =>
    by_cases hwas : ix.isRanged s.id
    · exact ⟨_, _, List.Perm.refl _, by simp only [insert, hr, hwas, if_true, rebuildTree]; rfl⟩
    · exact ⟨_, _, List.Perm.refl _, by simp only [insert, hr, hwas]; rfl⟩

theorem agrees_insert {ix : Index} {held : Held} (h : ix.Agrees held) (s : Statement) :
    (ix.insert s).Agrees (held.insert s.id s) := by
  refine ⟨inStep_insert h.inStep s, ?_⟩
  obtain ⟨ranged, tree, hp, heq⟩ := insert_eq_put h.inStep.sorted s
  have hput := files_put (files_forget h.files h.inStep.sorted s.id) (s := s)
    (by rw [Held.getElem?_erase, if_pos rfl])
  rw [heq]
  refine (hput.reorder hp tree).congr ?_
  intro id
  rw [Held.getElem?_insert, Held.getElem?_insert, Held.getElem?_erase]
  by_cases hid : s.id = id <;> simp [hid]

theorem agrees_remove {ix : Index} {held : Held} (h : ix.Agrees held) (id : StatementId) :
    (ix.remove id).1.Agrees (held.erase id) := by
  refine ⟨inStep_remove h.inStep id, ?_⟩
  have hforget := files_forget h.files h.inStep.sorted id
  unfold remove
  by_cases hr : ix.isRanged id
  · simp only [hr, if_true]
    exact hforget.reorder (List.Perm.refl _) _
  · simpa only [hr, Bool.false_eq_true, if_false] using hforget

theorem files_foldl_put {ix : Index} {held : Held} (h : ix.Files held) (statements : List Statement)
    (distinct : (statements.map (·.id)).Nodup) (hnew : ∀ s ∈ statements, held[s.id]? = none) :
    (statements.foldl put ix).Files
      (statements.foldl (fun held s => held.insert s.id s) held) := by
  induction statements generalizing ix held with
  | nil => exact h
  | cons s statements ih =>
    rw [List.map_cons, List.nodup_cons] at distinct
    refine ih (files_put h (hnew s List.mem_cons_self)) distinct.2 ?_
    intro t ht
    have hne : s.id ≠ t.id := fun heq => distinct.1 (heq ▸ List.mem_map_of_mem ht)
    rw [Held.getElem?_insert, if_neg hne]
    exact hnew t (List.mem_cons_of_mem _ ht)

theorem agrees_ofStatements {statements : List Statement}
    (distinct : (statements.map (·.id)).Nodup) :
    (ofStatements statements).Agrees (Held.ofStatements statements) := by
  refine ⟨inStep_ofStatements statements, ?_⟩
  have hfiles := files_foldl_put empty_files statements distinct (by simp)
  exact hfiles.reorder (by simpa using List.mergeSort_perm _ _) _

/-! ## Queries -/

section Queries

variable {ix : Index} {held : Held}

theorem Agrees.mem_queryPoint (h : ix.Agrees held) (p : Bound) (id : StatementId) :
    id ∈ ix.queryPoint p ↔
      ∃ s r, held[id]? = some s ∧ s.range = some r ∧ r.contains p := by
  rw [Index.mem_queryPoint h.inStep]
  constructor
  · rintro ⟨a, ha, rfl, hmin, hmax⟩
    obtain ⟨s, hs, hr⟩ := (h.files.mem_ranged a).mp ha
    exact ⟨s, _, hs, hr, by simp [AddressRange.contains, hmin, hmax]⟩
  · rintro ⟨s, r, hs, hr, hp⟩
    simp only [AddressRange.contains, Bool.and_eq_true, decide_eq_true_eq] at hp
    exact ⟨⟨r.min, r.max, id⟩, (h.files.mem_ranged _).mpr ⟨s, hs, hr⟩, rfl, hp⟩

theorem contains_of_covers {r q : AddressRange} (hq : q.min ≤ q.max) (h : r.covers q) :
    r.contains q.min := by
  simp only [AddressRange.covers, AddressRange.contains, Bool.and_eq_true,
    decide_eq_true_eq] at *
  exact ⟨h.1, Nat.le_trans hq h.2⟩

theorem Agrees.mem_queryCovering (h : ix.Agrees held) {q : AddressRange} (hq : q.min ≤ q.max)
    (id : StatementId) :
    id ∈ ix.queryCovering q ↔
      ∃ s r, held[id]? = some s ∧ s.range = some r ∧ r.covers q := by
  unfold queryCovering
  by_cases hpoint : q.min = q.max
  · simp only [hpoint, if_true]
    rw [h.mem_queryPoint]
    simp [AddressRange.contains, AddressRange.covers, hpoint]
  · simp only [hpoint, if_false]
    rw [Std.TreeSet.mem_filter]
    constructor
    · rintro ⟨hmem, hcov⟩
      obtain ⟨s, r, hs, hr, -⟩ := (h.mem_queryPoint _ _).mp hmem
      refine ⟨s, r, hs, hr, ?_⟩
      simpa [h.files.entries, hs, IndexEntry.ofStatement_ranged.mpr hr] using hcov
    · rintro ⟨s, r, hs, hr, hcov⟩
      refine ⟨(h.mem_queryPoint _ _).mpr ⟨s, r, hs, hr, contains_of_covers hq hcov⟩, ?_⟩
      simpa [h.files.entries, hs, IndexEntry.ofStatement_ranged.mpr hr] using hcov

theorem Agrees.mem_queryExact (h : ix.Agrees held) (label : String) (id : StatementId) :
    id ∈ ix.queryExact label ↔
      ∃ s, held[id]? = some s ∧ s.range = none ∧
        (s.firstEntity = label ∨ s.secondEntity = some label) := by
  have hlabels : ∀ s : Statement, label ∈ s.labels ↔
      s.firstEntity = label ∨ s.secondEntity = some label := by
    intro s
    simp [Statement.labels, eq_comm]
  simp only [queryExact, h.files.mem_labels, hlabels]

theorem mem_queryExact_insert (ix : Index) {s : Statement} (hr : s.range = none) {label : String}
    (hl : label ∈ s.labels) : s.id ∈ (ix.insert s).queryExact label := by
  have hput : s.id ∈ ((ix.forget s.id).put s).queryExact label := by
    simp only [queryExact, put, hr]
    exact (mem_addLabels s.labels).mpr (Or.inr ⟨rfl, hl⟩)
  simp only [insert, hr]
  split
  · exact hput
  · exact hput

theorem InStep.mem_queryCovering_insert (h : ix.InStep) {s : Statement} {r : AddressRange}
    (hr : s.range = some r) {q : AddressRange} (hq : q.min ≤ q.max) (hc : r.covers q) :
    s.id ∈ (ix.insert s).queryCovering q := by
  obtain ⟨front, back, hsplit, hf, hb⟩ :=
    exists_split (inOrder_forget h.sorted s.id) ⟨r.min, r.max, s.id⟩
  have hranged : (ix.insert s).ranged.toList = front ++ ⟨r.min, r.max, s.id⟩ :: back := by
    simp only [insert, hr, rebuildTree]
    exact toList_insert_leading hsplit hf hb
  have hentry : (ix.insert s).entries[s.id]? = some (.ranged r) := by
    simp [insert, hr, rebuildTree]
  have hcontains := contains_of_covers hq hc
  simp only [AddressRange.contains, Bool.and_eq_true, decide_eq_true_eq] at hcontains
  have hpoint : s.id ∈ (ix.insert s).queryPoint q.min := by
    rw [Index.mem_queryPoint (inStep_insert h s), hranged]
    exact ⟨⟨r.min, r.max, s.id⟩, by simp, rfl, hcontains⟩
  unfold queryCovering
  by_cases hsingle : q.min = q.max
  · simpa only [hsingle, if_true] using hpoint
  · simp only [hsingle, if_false]
    rw [Std.TreeSet.mem_filter]
    refine ⟨hpoint, ?_⟩
    simpa [hentry] using hc

theorem Agrees.contains_eq (h : ix.Agrees held) (id : StatementId) :
    ix.contains id = held.contains id := by
  rw [contains, Std.TreeMap.contains_eq_isSome_getElem?, Std.TreeMap.contains_eq_isSome_getElem?,
    h.files.entries, Option.isSome_map]

theorem Agrees.size_eq (h : ix.Agrees held) : ix.size = held.size := by
  have hequiv : ix.entries.Equiv (held.map fun _ s => IndexEntry.ofStatement s) := by
    apply Std.TreeMap.Equiv.of_forall_constGet?_eq
    intro id
    rw [Std.TreeMap.getElem?_map]
    exact h.files.entries id
  rw [size, hequiv.size_eq, Std.TreeMap.size_map]

end Queries

end Index
end Reputation
