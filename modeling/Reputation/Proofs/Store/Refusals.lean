import Reputation.Proofs.Store.Atomicity
/-!
What a statement that is refused leaves behind. A row is written before it is validated, so that a
statement without a name is refused when its row is there to stay. Any other statement is refused
before anything is written.
-/
namespace Reputation

theorem NewStatement.ofRecord_nameless {s : NewStatement} (hname : s.name = "")
    (id : StatementId) : Statement.ofRecord (s.statement id).toRecord =
      .error (.invalidRecord (.inStatement id .emptyName)) := by
  simp [Statement.ofRecord, Statement.toRecord, statement, hname, Statement.located]

namespace Store.Tables

variable {t t' : Tables} {s : NewStatement} {e : StoreError}

theorem insertStatement_nameless (hname : s.name = "") {id : StatementId}
    (h : t.storeRow s = (.ok (.ofNew id s), t')) :
    t.insertStatement s = (.error (.core (.invalidRecord (.inStatement id .emptyName))), t') := by
  simp [insertStatement, h, StatementRow.toRecord_ofNew, Except.bind,
    NewStatement.ofRecord_nameless hname, Except.mapError]

/-- The refusal of a statement: its key or the number for it is taken, or it has no name and has a
row, which was there or was added under a free key. -/
inductive Refusal (t : Tables) (s : NewStatement) : StoreError → Tables → Prop where
  | taken : Refusal t s .keyTaken t
  | found {id : StatementId} (hname : s.name = "") (hrow : .ofNew id s ∈ t.statements) :
      Refusal t s (.core (.invalidRecord (.inStatement id .emptyName))) t
  | added {id : StatementId} (hname : s.name = "") (hfree : t.hasStatement id = false)
      (hkey : ∀ r ∈ t.statements, r.key ≠ (StatementRow.ofNew id s).key) :
      Refusal t s (.core (.invalidRecord (.inStatement id .emptyName)))
        { t with statements := t.statements ++ [.ofNew id s] }

theorem snoc_ne (t : Tables) (row : StatementRow) :
    { t with statements := t.statements ++ [row] } ≠ t := by
  intro hsame
  have hlength := congrArg (·.statements.length) hsame
  simp at hlength

theorem key_free_of_added {row : StatementRow}
    (h : t.storeRow s = (.ok row, { t with statements := t.statements ++ [row] })) :
    ∀ r ∈ t.statements, r.key ≠ row.key := by
  have hafter : (t.storeRow s).2 = { t with statements := t.statements ++ [row] } := by rw [h]
  obtain hsame | ⟨row', -, -, hkey, hadded⟩ := storeRow_tables t s
  · exact absurd (hafter.symm.trans hsame) (snoc_ne t row)
  · rw [hafter] at hadded
    have hrows := congrArg (·.statements) hadded
    simp only [List.append_cancel_left_eq, List.cons.injEq, and_true] at hrows
    rwa [hrows]

theorem refusal_of_insertStatement (hs : s.Obtained) (h : t.insertStatement s = (.error e, t')) :
    t.Refusal s e t' := by
  rcases hrow : t.storeRow s with ⟨e' | row, after⟩
  · rw [insertStatement, hrow] at h
    obtain ⟨herror, rfl⟩ := Prod.mk.inj h
    obtain rfl := Except.error.inj herror
    obtain ⟨rfl, rfl⟩ := storeRow_error hrow
    exact .taken
  · obtain ⟨hof, hcases⟩ := storeRow_ok hrow
    obtain ⟨id, rfl⟩ : ∃ id, row = .ofNew id s := ⟨row.id, hof⟩
    by_cases hname : s.name = ""
    · rw [insertStatement_nameless hname hrow] at h
      cases h
      obtain ⟨hmem, rfl⟩ | ⟨hfree, rfl⟩ := hcases
      · exact .found hname hmem
      · exact .added hname hfree (key_free_of_added hrow)
    · rw [insertStatement_of_storeRow hs hname hrow] at h
      cases h

/-- A refused statement leaves its row behind just if it has no name and no row yet, and then
nothing else. Refused again, it leaves no more. -/
theorem refused_trace (hs : s.Obtained) (h : t.insertStatement s = (.error e, t')) :
    (t' = t ↔ s.name ≠ "" ∨ e = .keyTaken ∨ ∃ id, .ofNew id s ∈ t.statements) ∧
    (t' ≠ t → ∃ id, e = .core (.invalidRecord (.inStatement id .emptyName)) ∧
      t.hasStatement id = false ∧ t' = { t with statements := t.statements ++ [.ofNew id s] } ∧
      t'.insertStatement s = (.error e, t')) := by
  cases refusal_of_insertStatement hs h with
  | taken => exact ⟨by simp, fun hne => absurd rfl hne⟩
  | found hname hrow => exact ⟨iff_of_true rfl (.inr (.inr ⟨_, hrow⟩)), fun hne => absurd rfl hne⟩
  | @added id hname hfree hkey =>
    refine ⟨iff_of_false (snoc_ne t _) ?_, fun _ => ⟨id, rfl, hfree, rfl, ?_⟩⟩
    · rintro (hnamed | htaken | ⟨id', hrow⟩)
      · exact hnamed hname
      · cases htaken
      · exact hkey _ hrow (StatementRow.key_ofNew id' id s)
    · refine insertStatement_nameless hname (storeRow_found (by simp) ?_)
      intro r hr hsame
      rcases List.mem_append.mp hr with hr | hr
      · exact absurd hsame (hkey r hr)
      · exact List.mem_singleton.mp hr

def nameless : NewStatement := ⟨"", .domain "example.com", none⟩

theorem nameless_obtained : nameless.Obtained where
  first := .parsed (s := "example.com") rfl
  second e he := by cases he

/-- The domain is stored without a name where it is stored with one already. -/
theorem refused_trace_nameless :
    let t := (empty.insertStatement specimenDomain).2
    ∃ e t', t.insertStatement nameless = (.error e, t') ∧ t' ≠ t ∧
      t'.insertStatement nameless = (.error e, t') := by
  intro t
  have hrefused : t.insertStatement nameless =
      (.error (.core (.invalidRecord (.inStatement ⟨2⟩ .emptyName))),
        { t with statements := t.statements ++ [.ofNew ⟨2⟩ nameless] }) := rfl
  obtain ⟨-, htrace⟩ := refused_trace nameless_obtained hrefused
  obtain ⟨id, -, -, -, hagain⟩ := htrace (snoc_ne t _)
  exact ⟨_, _, hrefused, snoc_ne t _, hagain⟩

/-- A new store refuses the statement, and has a row afterwards. -/
theorem nameless_row_stays :
    empty.insertStatement nameless =
        (.error (.core (.invalidRecord (.inStatement ⟨1⟩ .emptyName))),
          { empty with statements := [.ofNew ⟨1⟩ nameless] }) ∧
      (empty.insertStatement nameless).2 ≠ empty :=
  ⟨rfl, snoc_ne empty (.ofNew ⟨1⟩ nameless)⟩

end Store.Tables
end Reputation
