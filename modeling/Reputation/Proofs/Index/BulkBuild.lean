import Reputation.Proofs.Index.Equivalence
/-!
An index built in one pass against one that statements are inserted into. The pass takes nothing
out, so a statement whose number comes again later stays behind with its interval or its labels. It
does no harm exactly where the interval contains no point, or the last statement of the number has
all of these labels; in all other lists the two indices can be told apart.
-/
namespace Reputation

theorem Held.getElem?_ofStatements_append (xs ys : List Statement) (id : StatementId) :
    (ofStatements (xs ++ ys))[id]? = (ofStatements ys)[id]?.or (ofStatements xs)[id]? := by
  have hfold : ∀ (ys : List Statement) (held : Held),
      (ys.foldl (fun held s => held.insert s.id s) held)[id]? =
        (ofStatements ys)[id]?.or held[id]? := by
    intro ys
    induction ys with
    | nil => simp [ofStatements]
    | cons s ys ih =>
      intro held
      rw [ofStatements, List.foldl_cons, List.foldl_cons, ih, ih (Std.TreeMap.insert ∅ s.id s),
        Option.or_assoc, getElem?_insert, getElem?_insert]
      by_cases hid : s.id = id
      · simp [hid]
      · simp [hid]
  rw [ofStatements, List.foldl_append]
  exact hfold ys _

theorem Held.getElem?_ofStatements_cons (s : Statement) (statements : List Statement)
    (id : StatementId) : (ofStatements (s :: statements))[id]? =
      (ofStatements statements)[id]?.or (if s.id = id then some s else none) := by
  have hone : (ofStatements [s])[id]? = if s.id = id then some s else none := by
    rw [ofStatements, List.foldl_cons, List.foldl_nil, getElem?_insert,
      Std.TreeMap.getElem?_emptyc]
  rw [← List.singleton_append, getElem?_ofStatements_append, hone]

theorem Held.mem_of_getElem?_ofStatements {statements : List Statement} {id : StatementId}
    {s : Statement} (h : (ofStatements statements)[id]? = some s) :
    s ∈ statements ∧ s.id = id := by
  induction statements with
  | nil => simp [ofStatements] at h
  | cons first statements ih =>
    rw [getElem?_ofStatements_cons, Option.or_eq_some_iff] at h
    rcases h with hlater | ⟨-, hfirst⟩
    · exact ⟨List.mem_cons_of_mem _ (ih hlater).1, (ih hlater).2⟩
    · by_cases hid : first.id = id
      · rw [if_pos hid, Option.some.injEq] at hfirst
        exact ⟨hfirst ▸ List.mem_cons_self, hfirst ▸ hid⟩
      · rw [if_neg hid] at hfirst
        cases hfirst

/-- Nothing of the statement shows beside the last one of its number. -/
structure Statement.FadesInto (s last : Statement) : Prop where
  interval : ∀ r, s.range = some r → ¬ r.min ≤ r.max
  labels : s.range = none → last.range = none ∧ ∀ label ∈ s.labels, label ∈ last.labels

/-- Every statement whose number comes again fades into the last one of that number. -/
def Statement.Fading (statements : List Statement) : Prop :=
  ∀ before s after last, statements = before ++ s :: after →
    (Held.ofStatements after)[s.id]? = some last → s.FadesInto last

theorem Statement.Fading.head {s last : Statement} {statements : List Statement}
    (h : Fading (s :: statements)) (hlast : (Held.ofStatements statements)[s.id]? = some last) :
    s.FadesInto last :=
  h [] s statements last rfl hlast

theorem Statement.Fading.tail {s : Statement} {statements : List Statement}
    (h : Fading (s :: statements)) : Fading statements := by
  intro before t after last hsplit
  exact h (s :: before) t after last (by rw [hsplit, List.cons_append])

namespace Index

theorem entries_foldl_put (statements : List Statement) (ix : Index) (id : StatementId) :
    (statements.foldl put ix).entries[id]? =
      ((Held.ofStatements statements)[id]?.map IndexEntry.ofStatement).or ix.entries[id]? := by
  induction statements generalizing ix with
  | nil => simp [Held.ofStatements]
  | cons s statements ih =>
    rw [List.foldl_cons, ih, Held.getElem?_ofStatements_cons, entries_put]
    cases (Held.ofStatements statements)[id]? with
    | some last => rfl
    | none => by_cases hid : s.id = id <;> simp [hid]

theorem mem_labels_foldl_put (statements : List Statement) (ix : Index) (label : String)
    (id : StatementId) : id ∈ (statements.foldl put ix).labels.getD label ∅ ↔
      id ∈ ix.labels.getD label ∅ ∨
        ∃ s ∈ statements, s.id = id ∧ s.range = none ∧ label ∈ s.labels := by
  induction statements generalizing ix with
  | nil => simp
  | cons s statements ih =>
    rw [List.foldl_cons, ih, mem_labels_put, or_assoc]
    simp only [List.mem_cons, exists_eq_or_imp]

theorem toList_ranged_foldl_put (statements : List Statement) (ix : Index) :
    (statements.foldl put ix).ranged.toList =
      ix.ranged.toList ++ statements.filterMap Interval.ofStatement? := by
  induction statements generalizing ix with
  | nil => simp
  | cons s statements ih =>
    rw [List.foldl_cons, ih, toList_ranged_put, List.append_assoc]
    cases hs : Interval.ofStatement? s <;> simp [hs]

theorem entries_ofStatements (statements : List Statement) (id : StatementId) :
    (ofStatements statements).entries[id]? =
      (Held.ofStatements statements)[id]?.map IndexEntry.ofStatement := by
  have hput := entries_foldl_put statements empty id
  rwa [empty, Std.TreeMap.getElem?_emptyc, Option.or_none] at hput

theorem mem_labels_ofStatements (statements : List Statement) (label : String)
    (id : StatementId) : id ∈ (ofStatements statements).labels.getD label ∅ ↔
      ∃ s ∈ statements, s.id = id ∧ s.range = none ∧ label ∈ s.labels := by
  have hempty : id ∉ empty.labels.getD label ∅ := by simp [empty]
  have hput := mem_labels_foldl_put statements empty label id
  rwa [or_iff_right hempty] at hput

theorem ranged_ofStatements_perm (statements : List Statement) :
    (ofStatements statements).ranged.toList.Perm
      (statements.filterMap Interval.ofStatement?) := by
  have hput : (statements.foldl put empty).ranged.toList =
      statements.filterMap Interval.ofStatement? := toList_ranged_foldl_put statements empty
  rw [← hput, ofStatements]
  exact List.mergeSort_perm _ _

theorem agrees_foldl_insert {ix : Index} {held : Held} (h : ix.Agrees held)
    (statements : List Statement) : (statements.foldl insert ix).Agrees
      (statements.foldl (fun held s => held.insert s.id s) held) := by
  induction statements generalizing ix held with
  | nil => exact h
  | cons s statements ih => exact ih (agrees_insert h s)

theorem agrees_empty : empty.Agrees ∅ := ⟨⟨List.Pairwise.nil, rfl⟩, empty_files⟩

theorem Files.count_ranged {ix : Index} {held : Held} (h : ix.Files held) (a : Interval) :
    ix.ranged.toList.count a = (held[a.id]?.bind (·.range)).toList.count ⟨a.min, a.max⟩ := by
  have hmem : a ∈ ix.ranged.toList ↔ held[a.id]?.bind (·.range) = some ⟨a.min, a.max⟩ := by
    rw [h.mem_ranged, Option.bind_eq_some_iff]
  rw [h.nodup.count]
  by_cases ha : a ∈ ix.ranged.toList
  · rw [if_pos ha, hmem.mp ha, Option.toList_some, List.count_singleton_self]
  · rw [if_neg ha, eq_comm, List.count_eq_zero, Option.mem_toList]
    exact fun hsome => ha (hmem.mpr hsome)

theorem Interval.ofStatement?_eq_some {s : Statement} {a : Interval} :
    Interval.ofStatement? s = some a ↔ a.id = s.id ∧ s.range = some ⟨a.min, a.max⟩ := by
  rw [Interval.ofStatement?, Option.map_eq_some_iff]
  constructor
  · rintro ⟨r, hr, rfl⟩
    exact ⟨rfl, hr⟩
  · rintro ⟨hid, hr⟩
    exact ⟨_, hr, ((Interval.eq_mk_iff a _ s.id).mpr ⟨hid, rfl⟩).symm⟩

open Statement (Fading)

theorem count_of_fading {statements : List Statement} (h : Fading statements) {a : Interval}
    (ha : a.min ≤ a.max) : (statements.filterMap Interval.ofStatement?).count a =
      ((Held.ofStatements statements)[a.id]?.bind (·.range)).toList.count ⟨a.min, a.max⟩ := by
  induction statements with
  | nil => simp [Held.ofStatements]
  | cons s statements ih =>
    have hrest := ih h.tail
    rw [Held.getElem?_ofStatements_cons]
    by_cases hs : Interval.ofStatement? s = some a
    · obtain ⟨hid, hr⟩ := Interval.ofStatement?_eq_some.mp hs
      -- An interval in order does not fade, so the number does not come again.
      cases hlast : (Held.ofStatements statements)[a.id]? with
      | some last =>
        rw [hid] at hlast
        exact absurd ha ((h.head hlast).interval _ hr)
      | none =>
        rw [hlast] at hrest
        rw [List.filterMap_cons_some hs, List.count_cons_self, hrest]
        simp [hid, hr]
    · have hcons : ((s :: statements).filterMap Interval.ofStatement?).count a =
          (statements.filterMap Interval.ofStatement?).count a := by
        cases hs' : Interval.ofStatement? s with
        | none => rw [List.filterMap_cons_none hs']
        | some b =>
          have hne : b ≠ a := fun heq => hs (heq ▸ hs')
          rw [List.filterMap_cons_some hs', List.count_cons_of_ne hne]
      rw [hcons, hrest]
      cases hlast : (Held.ofStatements statements)[a.id]? with
      | some last => rfl
      | none =>
        by_cases hid : s.id = a.id
        · have hr : s.range ≠ some ⟨a.min, a.max⟩ :=
            fun hr => hs (Interval.ofStatement?_eq_some.mpr ⟨hid.symm, hr⟩)
          have hzero : s.range.toList.count ⟨a.min, a.max⟩ = 0 := by
            rw [List.count_eq_zero, Option.mem_toList]
            exact hr
          rw [if_pos hid]
          exact hzero.symm
        · rw [if_neg hid]
          rfl

theorem exists_labelled_of_fading {statements : List Statement} (h : Fading statements)
    (label : String) (id : StatementId) :
    (∃ s ∈ statements, s.id = id ∧ s.range = none ∧ label ∈ s.labels) ↔
      ∃ s, (Held.ofStatements statements)[id]? = some s ∧ s.range = none ∧ label ∈ s.labels := by
  constructor
  · induction statements with
    | nil => simp
    | cons first statements ih =>
      rintro ⟨s, hs, rfl, hr, hlabel⟩
      rw [Held.getElem?_ofStatements_cons]
      rcases List.mem_cons.mp hs with rfl | hs
      · cases hlast : (Held.ofStatements statements)[s.id]? with
        | none => exact ⟨s, by simp, hr, hlabel⟩
        | some last =>
          obtain ⟨hnone, hsub⟩ := (h.head hlast).labels hr
          exact ⟨last, rfl, hnone, hsub label hlabel⟩
      · obtain ⟨t, ht, htlabel⟩ := ih h.tail ⟨s, hs, rfl, hr, hlabel⟩
        exact ⟨t, by rw [ht, Option.some_or], htlabel⟩
  · rintro ⟨s, hs, hr, hlabel⟩
    obtain ⟨hmem, hid⟩ := Held.mem_of_getElem?_ofStatements hs
    exact ⟨s, hmem, hid, hr, hlabel⟩

def insertAll (statements : List Statement) : Index := statements.foldl insert empty

theorem agrees_insertAll (statements : List Statement) :
    (insertAll statements).Agrees (Held.ofStatements statements) :=
  agrees_foldl_insert agrees_empty statements

theorem sameRecords_of_fading {statements : List Statement} (h : Fading statements) :
    (ofStatements statements).SameRecords (insertAll statements) := by
  have hfiles := (agrees_insertAll statements).files
  refine ⟨?_, ?_, ?_⟩
  · intro a ha
    rw [(ranged_ofStatements_perm statements).count_eq, hfiles.count_ranged, count_of_fading h ha]
  · intro id
    rw [entries_ofStatements, hfiles.entries]
  · intro label id
    rw [mem_labels_ofStatements, hfiles.mem_labels, exists_labelled_of_fading h]

theorem mem_queryPoint_ofStatements {statements : List Statement} {s : Statement}
    {r : AddressRange} {p : Bound} (hs : s ∈ statements) (hr : s.range = some r)
    (hp : r.contains p) : s.id ∈ (ofStatements statements).queryPoint p := by
  simp only [AddressRange.contains, Bool.and_eq_true, decide_eq_true_eq] at hp
  have hinterval : Interval.ofStatement? s = some ⟨r.min, r.max, s.id⟩ :=
    Interval.ofStatement?_eq_some.mpr ⟨rfl, hr⟩
  rw [Index.mem_queryPoint (inStep_ofStatements _)]
  refine ⟨⟨r.min, r.max, s.id⟩, ?_, rfl, hp⟩
  rw [(ranged_ofStatements_perm statements).mem_iff]
  exact List.mem_filterMap.mpr ⟨s, hs, hinterval⟩

section Left

variable {before after : List Statement} {s last : Statement}

theorem getElem?_superseded (h : (Held.ofStatements after)[s.id]? = some last) :
    (Held.ofStatements (before ++ s :: after))[s.id]? = some last := by
  rw [Held.getElem?_ofStatements_append, Held.getElem?_ofStatements_cons, h]
  rfl

/-- The interval of a superseded statement is still found when its number was removed. -/
theorem mem_queryPoint_superseded {statements : List Statement}
    (hsplit : statements = before ++ s :: after) (h : (Held.ofStatements after)[s.id]? = some last)
    {r : AddressRange} (hr : s.range = some r) (horder : r.min ≤ r.max) :
    s.id ∈ ((ofStatements statements).remove s.id).1.queryPoint r.min := by
  have hinterval : Interval.ofStatement? s = some ⟨r.min, r.max, s.id⟩ :=
    Interval.ofStatement?_eq_some.mpr ⟨rfl, hr⟩
  have hentry : (ofStatements statements).entries[s.id]? =
      some (IndexEntry.ofStatement last) := by
    rw [entries_ofStatements, hsplit, getElem?_superseded h, Option.map_some]
  have hranged := ranged_ofStatements_perm statements
  rw [hsplit, List.filterMap_append, List.filterMap_cons_some hinterval, ← hsplit] at hranged
  have hleft : (⟨r.min, r.max, s.id⟩ : Interval) ∈
      ((ofStatements statements).forget s.id).ranged.toList := by
    rw [toList_ranged_forget_eq (inStep_ofStatements _).sorted, hentry]
    cases hlast : IndexEntry.ofStatement last with
    | exact labels =>
      rw [hranged.mem_iff]
      simp
    | ranged q =>
      -- Only the last interval is taken out, and if it is the same one there are two of it.
      have hsecond : (⟨q.min, q.max, s.id⟩ : Interval) ∈ after.filterMap Interval.ofStatement? := by
        obtain ⟨hmem, hid⟩ := Held.mem_of_getElem?_ofStatements h
        exact List.mem_filterMap.mpr ⟨last, hmem, Interval.ofStatement?_eq_some.mpr
          ⟨hid.symm, IndexEntry.ofStatement_ranged.mp hlast⟩⟩
      rw [← List.count_pos_iff, List.count_erase, hranged.count_eq, List.count_append,
        List.count_cons_self]
      by_cases hsame : (⟨q.min, q.max, s.id⟩ : Interval) = ⟨r.min, r.max, s.id⟩
      · rw [hsame, ← List.count_pos_iff] at hsecond
        simp only [hsame, beq_self_eq_true, if_true]
        omega
      · simp only [beq_eq_false_iff_ne.mpr hsame, Bool.false_eq_true, if_false]
        omega
  obtain ⟨tree, heq⟩ := (ofStatements statements).remove_eq_forget s.id
  rw [Index.mem_queryPoint (inStep_remove (inStep_ofStatements _) _), heq]
  exact ⟨_, hleft, rfl, Nat.le_refl _, horder⟩

theorem mem_queryExact_superseded (hr : s.range = none) {label : String} (hl : label ∈ s.labels) :
    s.id ∈ (ofStatements (before ++ s :: after)).queryExact label :=
  (mem_labels_ofStatements _ _ _).mpr ⟨s, by simp, rfl, hr, hl⟩

end Left

theorem AnswersAs.mem_queryPoint {ix ix' : Index} (h : ix.AnswersAs ix') {p : Bound}
    {id : StatementId} (hid : id ∈ ix.queryPoint p) : id ∈ ix'.queryPoint p := by
  rw [← Std.TreeSet.mem_toList, ← h.point]
  exact Std.TreeSet.mem_toList.mpr hid

theorem AnswersAs.mem_queryExact {ix ix' : Index} (h : ix.AnswersAs ix') {label : String}
    {id : StatementId} (hid : id ∈ ix.queryExact label) : id ∈ ix'.queryExact label := by
  rw [← Std.TreeSet.mem_toList, ← h.labelled]
  exact Std.TreeSet.mem_toList.mpr hid

/-- The index built in one pass and the one built by insertions answer alike, and go on doing so
whatever changes follow on both, exactly if every statement whose number comes again fades. -/
theorem bulk_build_answersAs_iff (statements : List Statement) :
    (∀ cs, ((ofStatements statements).follow cs).AnswersAs
      ((statements.foldl insert empty).follow cs)) ↔ Fading statements := by
  have hagrees := agrees_insertAll statements
  constructor
  · rintro h before s after last rfl hlast
    have hheld : (Held.ofStatements (before ++ s :: after))[s.id]? = some last :=
      getElem?_superseded hlast
    refine ⟨?_, ?_⟩
    · intro r hr horder
      -- A removal is all it takes to tell them apart.
      have hfound :=
        (h [.remove s.id]).mem_queryPoint (mem_queryPoint_superseded rfl hlast hr horder)
      obtain ⟨t, q, ht, -⟩ := ((agrees_remove hagrees s.id).mem_queryPoint _ _).mp hfound
      rw [Held.getElem?_erase, if_pos rfl] at ht
      cases ht
    · intro hr
      have hlabelled : ∀ label ∈ s.labels, last.range = none ∧ label ∈ last.labels := by
        intro label hlabel
        have hfound := (h []).mem_queryExact (mem_queryExact_superseded hr hlabel)
        obtain ⟨t, ht, hnone, hmem⟩ := (hagrees.files.mem_labels _ _).mp hfound
        obtain rfl : last = t := Option.some.inj (hheld.symm.trans ht)
        exact ⟨hnone, hmem⟩
      have hfirst := hlabelled s.firstEntity List.mem_cons_self
      exact ⟨hfirst.1, fun label hlabel => (hlabelled label hlabel).2⟩
  · intro h cs
    exact (sameRecords_of_fading h).answersAs_follow (inStep_ofStatements _) hagrees.inStep cs

def formerNetwork : Statement :=
  ⟨⟨1⟩, "spammer", "network", none, some ⟨⟨0, by decide⟩, ⟨10, by decide⟩⟩⟩

/-- It has the number of `formerNetwork`, but another range. -/
def latterNetwork : Statement :=
  ⟨⟨1⟩, "spammer", "network", none, some ⟨⟨100, by decide⟩, ⟨110, by decide⟩⟩⟩

/-- Where the number comes twice, the former range is found in the index that was built in one pass,
even after the statement was removed, and not in the other. -/
theorem repeated_number_leaves_interval :
    formerNetwork.id ∈ (ofStatements [formerNetwork, latterNetwork]).queryPoint ⟨0, by decide⟩ ∧
      formerNetwork.id ∈ ((ofStatements [formerNetwork, latterNetwork]).remove
        formerNetwork.id).1.queryPoint ⟨0, by decide⟩ ∧
      formerNetwork.id ∉ ([formerNetwork, latterNetwork].foldl insert empty).queryPoint
        ⟨0, by decide⟩ := by
  have hrange : formerNetwork.range = some ⟨⟨0, by decide⟩, ⟨10, by decide⟩⟩ := rfl
  refine ⟨mem_queryPoint_ofStatements List.mem_cons_self hrange (by decide), ?_, ?_⟩
  · have hlast : (Held.ofStatements [latterNetwork])[formerNetwork.id]? = some latterNetwork := by
      decide
    exact mem_queryPoint_superseded (List.nil_append _).symm hlast hrange (by decide)
  · intro hfound
    obtain ⟨s, r, hs, hr, hcontains⟩ := ((agrees_insertAll _).mem_queryPoint _ _).mp hfound
    have hheld : (Held.ofStatements [formerNetwork, latterNetwork])[formerNetwork.id]? =
        some latterNetwork := by decide
    obtain rfl := Option.some.inj (hheld.symm.trans hs)
    obtain rfl := Option.some.inj hr
    exact absurd hcontains (by decide)

end Index
end Reputation
