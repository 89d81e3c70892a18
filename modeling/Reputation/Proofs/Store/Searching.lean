import Reputation.Proofs.Store.BadRows
/-!
Searching for statements. Rows that cannot be decoded are left out of what is found, but a row whose
record is not that of a valid statement makes the whole search fail, even if other rows are valid.
-/
namespace Reputation

variable {σ α β ε : Type}

/-- Either the function has a value everywhere, or the first element without one decides. -/
theorem mapM_outcome (f : α → Except ε β) (xs : List α) :
    ((∀ x ∈ xs, ∃ y, f x = .ok y) ∧ xs.mapM f = .ok (xs.filterMap fun x => (f x).toOption)) ∨
      ∃ front x back e, xs = front ++ x :: back ∧ (∀ p ∈ front, ∃ y, f p = .ok y) ∧
        f x = .error e ∧ xs.mapM f = .error e := by
  induction xs with
  | nil => exact .inl ⟨by simp, rfl⟩
  | cons x xs ih =>
    cases hx : f x with
    | error e =>
      refine .inr ⟨[], x, xs, e, rfl, by simp, hx, ?_⟩
      rw [List.mapM_cons, hx]
      rfl
    | ok y =>
      rcases ih with ⟨hall, hrun⟩ | ⟨front, bad, back, e, rfl, hfront, hbad, hrun⟩
      · refine .inl ⟨List.forall_mem_cons.mpr ⟨⟨y, hx⟩, hall⟩, ?_⟩
        rw [List.mapM_cons, List.filterMap_cons, hx, hrun]
        rfl
      · refine .inr ⟨x :: front, bad, back, e, rfl, ?_, hbad, ?_⟩
        · exact List.forall_mem_cons.mpr ⟨⟨y, hx⟩, hfront⟩
        · rw [List.mapM_cons, hx, hrun]
          rfl

theorem Engine.run_findStatements {e : Engine σ} {name first : String} {second : Option String}
    {world after : σ} {listed : List StatementRecord}
    (h : e.store.findStatements name first second world = (.answer listed, after)) :
    ExceptT.run (e.findStatements name first second) world =
      (listed.mapM Statement.ofRecord, after) := by
  rw [findStatements, Attempt.run_bind_eq, Routine.run_await_answer h]
  dsimp only
  cases listed.mapM Statement.ofRecord <;> rfl

namespace Store

namespace StatementRow

variable {row : StatementRow}

/-- The row can be decoded, but its record is not that of a valid statement. -/
def Misleads (row : StatementRow) : Prop := row.Decodes ∧ ¬ row.IsValid

instance (row : StatementRow) : Decidable row.Misleads := inferInstanceAs (Decidable (_ ∧ _))

theorem misleads_iff {r : StatementRecord} (h : row.Reads r) :
    row.Misleads ↔ ∃ e, Statement.ofRecord r = .error e := by
  have hdecodes : row.Decodes := ⟨r, h⟩
  rw [Misleads, isValid_iff, toRecord_eq_ok.mpr h, Except.bind]
  cases Statement.ofRecord r <;> simp [hdecodes, Except.toOption]

end StatementRow

namespace Tables

def matching (t : Tables) (name first : String) (second : Option String) : List StatementRow :=
  t.statements.filter fun row => row.name = name && row.first = first && row.second = second

section Matching

variable (t : Tables) (name first : String) (second : Option String)

theorem mem_findStatements {r : StatementRecord} :
    r ∈ t.findStatements name first second ↔ ∃ row ∈ t.matching name first second, row.Reads r := by
  have hperm : t.statementsById.Perm t.statements := List.mergeSort_perm _ _
  simp only [findStatements, decodeAll, matching, List.mem_filterMap, List.mem_filter,
    hperm.mem_iff, toOption_toRecord]

theorem readOff_valid :
    let valid := (t.findStatements name first second).filterMap fun r =>
      (Statement.ofRecord r).toOption
    ReadOff StatementRow.StandsFor ((t.matching name first second).filter (·.IsValid)) valid ∧
      valid.Pairwise (·.id ≤ ·.id) := by
  intro valid
  constructor
  · have hreads : ∀ row s, (row.toRecord.bind Statement.ofRecord).toOption = some s ↔
        StatementRow.StandsFor row s :=
      fun row s => toOption_eq_some.trans StatementRow.standsFor_iff.symm
    have hgood : ∀ row : StatementRow, row.IsValid ↔ ∃ s, row.StandsFor s := fun _ => Iff.rfl
    have hvalid : valid = (t.statementsById.filter fun row =>
        row.name = name && row.first = first && row.second = second).filterMap fun row =>
          (row.toRecord.bind Statement.ofRecord).toOption := by
      unfold valid findStatements decodeAll
      rw [List.filterMap_filterMap]
      refine List.filterMap_congr ?_
      intro row _
      cases row.toRecord <;> rfl
    have hperm : t.statementsById.Perm t.statements := List.mergeSort_perm _ _
    have h := readOff_filterMap hreads hgood
      (fun row => row.name = name && row.first = first && row.second = second) hperm
    rw [hvalid]
    simpa only [matching, List.filter_filter, Bool.and_comm] using h
  · rw [List.pairwise_filterMap]
    refine (readOff_findStatements t name first second).2.imp ?_
    intro r r' hle s hs s' hs'
    rw [Statement.ofRecord_id (toOption_eq_some.mp hs),
      Statement.ofRecord_id (toOption_eq_some.mp hs')]
    exact hle

theorem least_misleading {front back : List StatementRecord} {r : StatementRecord}
    (hlisted : t.findStatements name first second = front ++ r :: back)
    (hfront : ∀ p ∈ front, ∃ s, Statement.ofRecord p = .ok s) {row : StatementRow}
    (hrow : row ∈ t.matching name first second) (hmisleads : row.Misleads) : r.id ≤ row.id := by
  obtain ⟨r', hreads⟩ := hmisleads.1
  obtain ⟨e, he⟩ := (StatementRow.misleads_iff hreads).mp hmisleads
  have hr' := (mem_findStatements t name first second).mpr ⟨row, hrow, hreads⟩
  have hsorted := (readOff_findStatements t name first second).2
  rw [hlisted] at hr' hsorted
  rw [← hreads.id]
  rcases List.mem_append.mp hr' with hbefore | hafter
  · obtain ⟨s, hs⟩ := hfront r' hbefore
    cases hs.symm.trans he
  · rcases List.mem_cons.mp hafter with rfl | hafter
    · exact Int64.le_refl _
    · exact (List.pairwise_cons.mp (List.pairwise_append.mp hsorted).2.1).1 r' hafter

theorem validated_findStatements :
    let validated := (t.findStatements name first second).mapM Statement.ofRecord
    ((∀ row ∈ t.matching name first second, ¬ row.Misleads) ∧ ∃ found, validated = .ok found ∧
      ReadOff StatementRow.StandsFor ((t.matching name first second).filter (·.IsValid)) found ∧
      found.Pairwise (·.id ≤ ·.id)) ∨
    ∃ row ∈ t.matching name first second, row.Misleads ∧ ∃ r fault, row.Reads r ∧
      Statement.ofRecord r = .error (.invalidRecord fault) ∧
      validated = .error (.invalidRecord fault) ∧
      ∀ other ∈ t.matching name first second, other.Misleads → row.id ≤ other.id := by
  intro validated
  rcases mapM_outcome Statement.ofRecord (t.findStatements name first second) with
    ⟨hall, hok⟩ | ⟨front, r, back, e, hlisted, hfront, hr, herror⟩
  · obtain ⟨hvalid, hsorted⟩ := readOff_valid t name first second
    refine .inl ⟨?_, _, hok, hvalid, hsorted⟩
    intro row hrow hmisleads
    obtain ⟨r, hreads⟩ := hmisleads.1
    obtain ⟨s, hs⟩ := hall r ((mem_findStatements t name first second).mpr ⟨row, hrow, hreads⟩)
    obtain ⟨e, he⟩ := (StatementRow.misleads_iff hreads).mp hmisleads
    cases hs.symm.trans he
  · obtain ⟨fault, rfl⟩ := Statement.ofRecord_error hr
    have hmem : r ∈ t.findStatements name first second :=
      hlisted ▸ List.mem_append_right front List.mem_cons_self
    obtain ⟨row, hrow, hreads⟩ := (mem_findStatements t name first second).mp hmem
    have hmisleads := (StatementRow.misleads_iff hreads).mpr ⟨_, hr⟩
    refine .inr ⟨row, hrow, hmisleads, r, fault, hreads, hr, herror, ?_⟩
    intro other hother hmisleads'
    rw [← hreads.id]
    exact least_misleading t name first second hlisted hfront hother hmisleads'

end Matching

/-- A search finds exactly the valid rows that match, unless one of the matching rows misleads.
Then it fails with the fault of the least of these. -/
theorem find_outcome (t : Tables) (trust : SignerId → Float) (own : Option OwnKey) (ix : Index)
    (name first : String) (second : Option String) :
    let n : Node Tables := ⟨{ service trust with own }, t, ix⟩
    let matching := t.matching name first second
    ((∀ row ∈ matching, ¬ row.Misleads) ↔ ∃ found,
      n.findStatements name first second = (.ok found, n) ∧
      ReadOff StatementRow.StandsFor (matching.filter (·.IsValid)) found ∧
      found.Pairwise (·.id ≤ ·.id)) ∧
    ((∃ row ∈ matching, row.Misleads) ↔ ∃ row ∈ matching, ∃ r fault, row.Reads r ∧
      Statement.ofRecord r = .error (.invalidRecord fault) ∧
      n.findStatements name first second = (.error (.invalidRecord fault), n) ∧
      ∀ other ∈ matching, other.Misleads → row.id ≤ other.id) := by
  intro n matching
  have hlisting : n.service.engine.store.findStatements name first second n.world =
      (.answer (t.findStatements name first second), t) := rfl
  rw [Node.findStatements, Node.run, Engine.run_findStatements hlisting]
  rcases validated_findStatements t name first second with
    ⟨hnone, found, hok, hfound⟩ | ⟨row, hrow, hmisleads, r, fault, hreads, hr, herror, hleast⟩
  · rw [hok]
    refine ⟨iff_of_true hnone ⟨found, rfl, hfound⟩, iff_of_false ?_ ?_⟩
    · rintro ⟨row, hrow, hmisleads⟩
      exact hnone row hrow hmisleads
    · rintro ⟨row, -, r, fault, -, -, herror, -⟩
      cases herror
  · rw [herror]
    refine ⟨iff_of_false ?_ ?_, iff_of_true ⟨row, hrow, hmisleads⟩ ?_⟩
    · exact fun hnone => hnone row hrow hmisleads
    · rintro ⟨found, hfound, -⟩
      cases hfound
    · exact ⟨row, hrow, r, fault, hreads, hr, rfl, hleast⟩

def halved : Tables where
  statements :=
    [⟨⟨1⟩, "spammer", "192.0.2.5", none, .text "ffffc0000205", .text "ffffc0000205"⟩,
      ⟨⟨2⟩, "spammer", "192.0.2.5", none, .text "ffffc0000205", .null⟩]
  opinions := []
  hints := []

/-- The first row is valid and matches, and yet nothing is found. -/
theorem valid_row_hidden :
    let n : Node Tables := ⟨service fun _ => 1, halved, .empty⟩
    let host : AddressRange := ⟨⟨0xffffc0000205, by decide⟩, ⟨0xffffc0000205, by decide⟩⟩
    (∃ row ∈ halved.matching "spammer" "192.0.2.5" none,
        row.StandsFor ⟨⟨1⟩, "spammer", "192.0.2.5", none, some host⟩) ∧
      n.findStatements "spammer" "192.0.2.5" none =
        (.error (.invalidRecord (.inStatement ⟨2⟩ .halfRange)), n) := by
  intro n host
  constructor
  · refine ⟨_, List.mem_cons_self, ?_⟩
    exact StatementRow.standsFor_iff.mpr (toOption_eq_some.mp (by decide +kernel))
  · have hlisted : halved.findStatements "spammer" "192.0.2.5" none =
        [⟨⟨1⟩, "spammer", "192.0.2.5", none, some host.min, some host.max⟩,
          ⟨⟨2⟩, "spammer", "192.0.2.5", none, some host.min, none⟩] := by
      have hsorted : halved.statementsById = halved.statements :=
        List.mergeSort_of_pairwise (by decide)
      rw [findStatements, hsorted]
      decide +kernel
    have hlisting : n.service.engine.store.findStatements "spammer" "192.0.2.5" none n.world =
        (.answer (halved.findStatements "spammer" "192.0.2.5" none), halved) := rfl
    rw [Node.findStatements, Node.run, Engine.run_findStatements hlisting, hlisted]
    rfl

end Tables
end Store
end Reputation
