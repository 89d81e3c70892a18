import Reputation.Proofs.Store.Reuse
/-!
The order of scans. The store sorts the texts of bounds, nulls before all texts. As every bound is
written in the same width, what comes out is the order of the bounds as numbers: statements without
a range by their own numbers, then the others by lower bound, upper bound and number.
-/
namespace Reputation

namespace StatementRecord

def IsUnranged (r : StatementRecord) : Prop := r.lower = none ∧ r.upper = none

def Spans (r : StatementRecord) (q : AddressRange) : Prop :=
  r.lower = some q.min ∧ r.upper = some q.max

def RangedBefore (a b : StatementRecord) : Prop :=
  ∃ q q', a.Spans q ∧ b.Spans q' ∧
    (q.min.value < q'.min.value ∨ q.min.value = q'.min.value ∧
      (q.max.value < q'.max.value ∨ q.max.value = q'.max.value ∧ a.id < b.id))

/-- How one record comes before another one in a scan. -/
inductive ScannedBefore : StatementRecord → StatementRecord → Prop where
  | unranged {a b : StatementRecord} (ha : a.IsUnranged) (hb : b.IsUnranged) (h : a.id < b.id) :
      ScannedBefore a b
  | mixed {a b : StatementRecord} (ha : a.IsUnranged) {q : AddressRange} (hb : b.Spans q) :
      ScannedBefore a b
  | ranged {a b : StatementRecord} (h : a.RangedBefore b) : ScannedBefore a b

theorem IsUnranged.not_spans {r : StatementRecord} (h : r.IsUnranged) (q : AddressRange) :
    ¬ r.Spans q := by
  rintro ⟨hlower, -⟩
  rw [h.1] at hlower
  cases hlower

theorem exists_split {rs : List StatementRecord} (hsorted : rs.Pairwise ScannedBefore)
    (hkinds : ∀ r ∈ rs, r.IsUnranged ∨ ∃ q, r.Spans q) :
    ∃ unranged ranged, rs = unranged ++ ranged ∧
      (∀ r ∈ unranged, r.IsUnranged) ∧ unranged.Pairwise (·.id < ·.id) ∧
      (∀ r ∈ ranged, ∃ q, r.Spans q) ∧ ranged.Pairwise RangedBefore := by
  induction rs with
  | nil => exact ⟨[], [], rfl, by simp, .nil, by simp, .nil⟩
  | cons a rs ih =>
    obtain ⟨hfirst, hrest⟩ := List.pairwise_cons.mp hsorted
    obtain ⟨unranged, ranged, rfl, hunranged, hids, hranged, hranges⟩ :=
      ih hrest fun r hr => hkinds r (List.mem_cons_of_mem _ hr)
    rcases hkinds a List.mem_cons_self with ha | ⟨q, ha⟩
    · refine ⟨a :: unranged, ranged, rfl, ?_, ?_, hranged, hranges⟩
      · simpa using ⟨ha, hunranged⟩
      · refine List.pairwise_cons.mpr ⟨fun b hb => ?_, hids⟩
        cases hfirst b (List.mem_append_left _ hb) with
        | unranged _ _ hid => exact hid
        | mixed _ hspans => exact absurd hspans ((hunranged b hb).not_spans _)
        | ranged hbefore =>
          obtain ⟨q, -, hspans, -⟩ := hbefore
          exact absurd hspans (ha.not_spans q)
    · -- After a range there are ranges only.
      have hafter : ∀ b ∈ unranged ++ ranged, a.RangedBefore b := by
        intro b hb
        cases hfirst b hb with
        | unranged hnone => exact absurd ha (hnone.not_spans q)
        | mixed hnone => exact absurd ha (hnone.not_spans q)
        | ranged hbefore => exact hbefore
      have hnone : unranged = [] := by
        rw [List.eq_nil_iff_forall_not_mem]
        intro b hb
        obtain ⟨-, q', -, hspans, -⟩ := hafter b (List.mem_append_left _ hb)
        exact (hunranged b hb).not_spans q' hspans
      subst hnone
      refine ⟨[], a :: ranged, rfl, by simp, .nil, ?_, List.pairwise_cons.mpr ⟨hafter, hranges⟩⟩
      intro r hr
      rcases List.mem_cons.mp hr with rfl | hr
      · exact ⟨q, ha⟩
      · exact hranged r hr

end StatementRecord

namespace Store

theorem transCmp_cell : Std.TransCmp Cell.compare where
  eq_swap {a b} := by
    cases a <;> cases b <;> first | rfl | exact Std.OrientedOrd.eq_swap
  isLE_trans {a b c} hab hbc := by
    cases a <;> cases b <;> cases c <;>
      first | rfl | contradiction | exact Std.TransOrd.isLE_trans hab hbc

instance : Ord Cell := ⟨Cell.compare⟩

instance transOrdCell : Std.TransOrd Cell := transCmp_cell

theorem lt_of_isLE_compare {id id' : StatementId} (hne : id ≠ id') (h : (compare id id').isLE) :
    id < id' := by
  have hle : id.val ≤ id'.val := Std.isLE_compare.mp h
  have hdiffer := mt (StatementId.eq_iff id id').mpr hne
  rw [StatementId.lt_iff]
  exact lt_of_le_of_ne (Int64.le_iff_toInt_le.mp hle) hdiffer

namespace StatementRow

def scanCompare : StatementRow → StatementRow → Ordering :=
  compareLex (compareOn lower) (compareLex (compareOn upper) (compareOn id))

instance transCmpScan : Std.TransCmp scanCompare :=
  inferInstanceAs (Std.TransCmp (compareLex _ (compareLex _ _)))

theorem scanOrder_eq (a b : StatementRow) : scanOrder a b = (scanCompare a b).isLE := rfl

theorem pairwise_scanOrder (rows : List StatementRow) :
    (rows.mergeSort scanOrder).Pairwise fun a b => scanOrder a b := by
  refine List.pairwise_mergeSort ?_ ?_ rows
  · intro a b c hab hbc
    exact transCmpScan.isLE_trans hab hbc
  · intro a b
    rw [scanOrder_eq, scanOrder_eq, @transCmpScan.eq_swap b a]
    cases scanCompare a b <;> rfl

theorem isUnranged_statement {s : NewStatement} (h : s.range? = none) (id : StatementId) :
    (s.statement id).toRecord.IsUnranged where
  left := congrArg (Option.map AddressRange.min) h
  right := congrArg (Option.map AddressRange.max) h

theorem spans_statement {s : NewStatement} {q : AddressRange} (h : s.range? = some q)
    (id : StatementId) : (s.statement id).toRecord.Spans q where
  left := congrArg (Option.map AddressRange.min) h
  right := congrArg (Option.map AddressRange.max) h

/-- The order of the cells of two statements is that of their ranges. Numbers decide last. -/
theorem scannedBefore_of_scanOrder {id id' : StatementId} {s s' : NewStatement} (hne : id ≠ id')
    (h : scanOrder (ofNew id s) (ofNew id' s')) :
    (s.statement id).toRecord.ScannedBefore (s'.statement id').toRecord := by
  rw [scanOrder, Ordering.isLE_then_iff_or, Ordering.isLE_then_iff_or] at h
  cases hrange : s.range? with
  | none =>
    cases hrange' : s'.range? with
    | none =>
      apply StatementRecord.ScannedBefore.unranged (isUnranged_statement hrange id)
        (isUnranged_statement hrange' id')
      apply lt_of_isLE_compare hne
      simpa [ofNew, hrange, hrange', Cell.ofBound, Cell.compare] using h
    | some q' =>
      exact .mixed (isUnranged_statement hrange id) (spans_statement hrange' id')
  | some q =>
    cases hrange' : s'.range? with
    | none =>
      -- A text never comes before null, so the rows cannot stand in this order.
      simp [ofNew, hrange, hrange', Cell.ofBound, Cell.compare] at h
    | some q' =>
      refine .ranged ⟨q, q', spans_statement hrange id, spans_statement hrange' id', ?_⟩
      simp only [ofNew, hrange, hrange', Option.map_some, Cell.ofBound, Cell.compare,
        Bound.compare_text, Nat.compare_eq_lt, Nat.compare_eq_eq] at h
      rcases h with hlower | ⟨hlower, hupper | ⟨hupper, hle⟩⟩
      · exact .inl hlower
      · exact .inr ⟨hlower, .inl hupper⟩
      · exact .inr ⟨hlower, .inr ⟨hupper, lt_of_isLE_compare hne hle⟩⟩

end StatementRow

namespace Tables

theorem decodes_of_mem_run {ws : List Write} {row : StatementRow}
    (h : row ∈ (empty.run ws).statements) : row.Decodes := by
  obtain ⟨s, -, hrow⟩ := exists_statement_of_mem_run h
  rw [hrow]
  exact ⟨_, StatementRow.toRecord_eq_ok.mp (StatementRow.toRecord_ofNew row.id s)⟩

theorem exists_record_of_mem_run {ws : List Write} {row : StatementRow} {r : StatementRecord}
    (h : row ∈ (empty.run ws).statements) (hr : row.toRecord.toOption = some r) :
    ∃ s, row = .ofNew row.id s ∧ r = (s.statement row.id).toRecord := by
  obtain ⟨s, -, hrow⟩ := exists_statement_of_mem_run h
  refine ⟨s, hrow, ?_⟩
  rw [hrow, StatementRow.toRecord_ofNew] at hr
  exact (Option.some.inj hr).symm

theorem pairwise_scanStatements (ws : List Write) :
    (empty.run ws).scanStatements.Pairwise StatementRecord.ScannedBefore := by
  have hperm := List.mergeSort_perm (empty.run ws).statements StatementRow.scanOrder
  have hnodup : ((empty.run ws).statements.mergeSort StatementRow.scanOrder).Pairwise
      fun a b => a.id ≠ b.id := by
    have hkeyed := (filed_empty.run ws).keyed
    exact List.pairwise_map.mp ((hperm.map StatementRow.id).nodup_iff.mpr hkeyed)
  rw [scanStatements, decodeAll, List.pairwise_filterMap]
  apply List.Pairwise.imp_of_mem _ (hnodup.and (StatementRow.pairwise_scanOrder _))
  -- The order of two rows tells that of their records only because both have been written by
  -- statements; an older text of a bound could be narrower.
  rintro a b ha hb ⟨hne, horder⟩ r hr r' hr'
  obtain ⟨s, hrow, rfl⟩ := exists_record_of_mem_run (hperm.mem_iff.mp ha) hr
  obtain ⟨s', hrow', rfl⟩ := exists_record_of_mem_run (hperm.mem_iff.mp hb) hr'
  rw [hrow, hrow'] at horder
  exact StatementRow.scannedBefore_of_scanOrder hne horder

theorem unranged_or_spans_of_mem_scan {ws : List Write} {r : StatementRecord}
    (h : r ∈ (empty.run ws).scanStatements) : r.IsUnranged ∨ ∃ q, r.Spans q := by
  obtain ⟨row, hrow, hr⟩ := List.mem_filterMap.mp h
  obtain ⟨s, -, rfl⟩ := exists_record_of_mem_run (List.mem_mergeSort.mp hrow) hr
  cases hrange : s.range? with
  | none => exact .inl (StatementRow.isUnranged_statement hrange row.id)
  | some q => exact .inr ⟨q, StatementRow.spans_statement hrange row.id⟩

/-- After any run on a new store, a scan reads off each row once: first the statements without a
range by number, then the others by lower bound, upper bound and number, bounds being compared as
numbers. -/
theorem scan_in_numeric_order (ws : List Write) :
    ReadOff StatementRow.Reads (empty.run ws).statements (empty.run ws).scanStatements ∧
      ∃ unranged ranged, (empty.run ws).scanStatements = unranged ++ ranged ∧
        (∀ r ∈ unranged, r.IsUnranged) ∧ unranged.Pairwise (·.id < ·.id) ∧
        (∀ r ∈ ranged, ∃ q, r.Spans q) ∧ ranged.Pairwise StatementRecord.RangedBefore := by
  constructor
  · have hall : (empty.run ws).statements.filter (·.Decodes) = (empty.run ws).statements :=
      List.filter_eq_self.mpr fun row hrow => decide_eq_true (decodes_of_mem_run hrow)
    have hread := readOff_scanStatements (empty.run ws)
    rwa [hall] at hread
  · exact StatementRecord.exists_split (pairwise_scanStatements ws)
      fun r hr => unranged_or_spans_of_mem_scan hr

end Tables
end Store
end Reputation
