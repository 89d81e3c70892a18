import Reputation.Proofs.Index.Equivalence
import Reputation.Proofs.Resolution.Candidates
import Reputation.Proofs.Store.GetOrCreate
/-!
The index of what tables hold. Indexing all of it anew and following every change one by one give
indices with the same answers, as long as each change is followed that makes a statement come, go or
read differently.
-/
namespace Reputation

namespace Store.Tables

variable {t t' : Tables} {id : StatementId}

def statement? (t : Tables) (id : StatementId) : Option Statement :=
  (t.statements.find? (·.id = id)).bind fun row =>
    (row.toRecord.bind Statement.ofRecord).toOption

theorem statement?_congr (h : t'.statements = t.statements) : t'.statement? = t.statement? := by
  funext id
  rw [statement?, statement?, h]

theorem statement?_eq_none (h : t.hasStatement id = false) : t.statement? id = none := by
  have hnone : t.statements.find? (·.id = id) = none := by
    rw [List.find?_eq_none]
    intro r hr
    simpa using hasStatement_eq_false.mp h r hr
  rw [statement?, hnone]
  rfl

theorem statement?_eq_some (h : t.Keyed) {s : Statement} :
    t.statement? id = some s ↔
      ∃ row ∈ t.statements, row.id = id ∧ row.toRecord.bind Statement.ofRecord = .ok s := by
  simp only [statement?, Option.bind_eq_some_iff, find?_key_eq_some h, toOption_eq_some, and_assoc]

theorem mem_scanStatements {r : StatementRecord} :
    r ∈ t.scanStatements ↔ ∃ row ∈ t.statements, row.toRecord = .ok r := by
  rw [scanStatements, decodeAll, List.mem_filterMap]
  exact exists_congr fun row => and_congr List.mem_mergeSort toOption_eq_some

theorem scanStatements_distinct (h : t.Keyed) : (t.scanStatements.map (·.id)).Nodup := by
  have hkeyed : ((t.statements.mergeSort StatementRow.scanOrder).map (·.id)).Nodup :=
    ((List.mergeSort_perm _ _).map _).nodup_iff.mpr h
  refine (keys_filterMap_sublist ?_ _).nodup hkeyed
  intro row r hr
  exact (StatementRow.toRecord_eq_ok.mp (toOption_eq_some.mp hr)).id

/-- What a store of these tables holds when it is scanned. -/
def content (t : Tables) (h : t.Keyed) : Content where
  toTestimony := t.testimony
  records := t.scanStatements
  distinct := scanStatements_distinct h

theorem statement?_content (h : t.Keyed) (id : StatementId) :
    (t.content h).statement? id = t.statement? id := by
  ext s
  rw [Content.statement?_eq_some, statement?_eq_some h]
  constructor
  · rintro ⟨r, hr, rfl, hs⟩
    obtain ⟨row, hrow, hdecoded⟩ := mem_scanStatements.mp hr
    exact ⟨row, hrow, (StatementRow.toRecord_eq_ok.mp hdecoded).id.symm, by rw [hdecoded]; exact hs⟩
  · rintro ⟨row, hrow, rfl, hs⟩
    cases hdecoded : row.toRecord with
    | error e => simp [hdecoded, Except.bind] at hs
    | ok r =>
      rw [hdecoded] at hs
      exact ⟨r, mem_scanStatements.mpr ⟨row, hrow, hdecoded⟩,
        (StatementRow.toRecord_eq_ok.mp hdecoded).id, hs⟩

theorem holds_ofRecords (h : t.Keyed) :
    (Index.ofRecords t.scanStatements).Holds t.statement? :=
  ⟨(t.content h).held, (t.content h).agrees_ofRecords,
    fun id => by rw [Content.getElem?_held, statement?_content]⟩

section Writes

variable {s : NewStatement} {row : StatementRow}

theorem storeRow_error {e : StoreError} (h : t.storeRow s = (.error e, t')) :
    e = .keyTaken ∧ t' = t := by
  unfold storeRow at h
  dsimp only at h
  split at h
  · split at h
    · cases h
    · cases h
      exact ⟨rfl, rfl⟩
  · split at h
    · cases h
      exact ⟨rfl, rfl⟩
    · cases h

theorem statement?_storeRow (h : t.Keyed) (hrow : t.storeRow s = (.ok row, t')) :
    t'.statement? =
      Function.update t.statement? row.id (row.toRecord.bind Statement.ofRecord).toOption := by
  funext id
  rw [Function.update_apply]
  by_cases hid : id = row.id
  · subst hid
    rw [if_pos rfl, statement?, find?_storeRow h hrow]
    rfl
  · rw [if_neg hid]
    obtain ⟨-, ⟨-, rfl⟩ | ⟨-, rfl⟩⟩ := storeRow_ok hrow
    · rfl
    · have hother : ¬ row.id = id := fun heq => hid heq.symm
      simp [statement?, List.find?_append, hother]

theorem statement?_insertStatement_ok {st : Statement} (h : t.Keyed)
    (hinsert : t.insertStatement s = (.ok st, t')) :
    t'.statement? = Function.update t.statement? st.id (some st) := by
  obtain ⟨row, r, hrow, hr, hv⟩ := insertStatement_ok hinsert
  have hid : st.id = row.id := StatementRow.id_of_ofRecord hr hv
  rw [statement?_storeRow h hrow, hid, hr]
  simp [Except.bind, hv, Except.toOption]

theorem statement?_insertStatement_error {e : StoreError} (h : t.Keyed)
    (hinsert : t.insertStatement s = (.error e, t')) : t'.statement? = t.statement? := by
  unfold insertStatement at hinsert
  rcases hrow : t.storeRow s with ⟨result, after⟩
  rw [hrow] at hinsert
  cases result with
  | error e' =>
    obtain ⟨-, rfl⟩ := Prod.mk.inj hinsert
    rw [(storeRow_error hrow).2]
  | ok row =>
    obtain ⟨hinvalid, rfl⟩ := Prod.mk.inj hinsert
    obtain ⟨-, ⟨-, rfl⟩ | ⟨hfree, -⟩⟩ := storeRow_ok hrow
    · rfl
    · rw [statement?_storeRow h hrow]
      cases hv : row.toRecord.bind Statement.ofRecord with
      | ok st => simp [hv, Except.mapError] at hinvalid
      | error e' => exact Function.update_eq_self_iff.mpr (statement?_eq_none hfree).symm

theorem statement?_purge (t : Tables) (id : StatementId) :
    (t.purge id).2.statement? = Function.update t.statement? id none := by
  funext x
  rw [Function.update_apply]
  by_cases hx : x = id
  · have hnone : (t.purge id).2.hasStatement x = false := by
      simp [hasStatement, purge, hx]
    rw [if_pos hx, statement?_eq_none hnone]
  · have hsame : (t.purge id).2.statements.find? (·.id = x) = t.statements.find? (·.id = x) := by
      rw [purge, List.find?_filter]
      congr 1
      funext r
      by_cases hr : r.id = x
      · simp [hr, hx]
      · simp [hr]
    rw [if_neg hx, statement?, hsame]
    rfl

theorem insertOpinion_statements (t : Tables) (o : SignedOpinion) :
    (t.insertOpinion o).2.statements = t.statements := by
  obtain hsame | ⟨row, -, -, hadded⟩ := insertOpinion_tables t o
  · rw [hsame]
  · rw [hadded]

end Writes

end Store.Tables
end Reputation
