import Reputation.Proofs.Store.Atomicity
/-!
What writes to tables do not look at. Statements are stored without regard to opinions and hints,
and opinions without regard to hints, so tables that differ there are written alike.
-/
namespace Reputation.Store.Tables

theorem insertStatement_frame (t : Tables) (opinions : List OpinionRow) (hints : List HintRow)
    (s : NewStatement) :
    insertStatement { t with opinions, hints } s =
      ((t.insertStatement s).1, { (t.insertStatement s).2 with opinions, hints }) := by
  have hstore : storeRow { t with opinions, hints } s =
      ((t.storeRow s).1, { (t.storeRow s).2 with opinions, hints }) := by
    unfold storeRow
    dsimp only
    split
    · split <;> rfl
    · unfold hasStatement
      split <;> rfl
  unfold insertStatement
  rw [hstore]
  rcases t.storeRow s with ⟨e | row, after⟩
  · rfl
  · rfl

theorem insertOpinion_frame (t : Tables) (hints : List HintRow) (o : SignedOpinion) :
    insertOpinion { t with hints } o =
      ((t.insertOpinion o).1, { (t.insertOpinion o).2 with hints }) := by
  unfold insertOpinion hasStatement
  dsimp only
  split
  · rfl
  · split
    · rfl
    · split <;> rfl

/-- The same statements and the same opinions. The hints may differ. -/
structure SameRecords (t u : Tables) : Prop where
  statements : u.statements = t.statements
  opinions : u.opinions = t.opinions

namespace SameRecords

variable {t u : Tables}

theorem refl (t : Tables) : t.SameRecords t := ⟨rfl, rfl⟩

theorem keyed (h : t.SameRecords u) (hkeyed : t.Keyed) : u.Keyed := by
  rw [Keyed, h.statements]
  exact hkeyed

theorem eq_with (h : t.SameRecords u) : u = { t with hints := u.hints } := by
  rw [← h.statements, ← h.opinions]

theorem recordHints (h : t.SameRecords u) (weights : Std.TreeMap StatementId Float)
    (usedAt : Instant) : t.SameRecords (u.recordHints weights usedAt) := by
  obtain ⟨hints, heq, -⟩ := recordHints_tables u weights usedAt
  rw [heq]
  exact ⟨h.statements, h.opinions⟩

theorem insertStatement (h : t.SameRecords u) (s : NewStatement) :
    (u.insertStatement s).1 = (t.insertStatement s).1 ∧
      (t.insertStatement s).2.SameRecords (u.insertStatement s).2 := by
  have hframe := insertStatement_frame t t.opinions u.hints s
  rw [← h.eq_with] at hframe
  rw [hframe]
  exact ⟨rfl, rfl, (insertStatement_opinions t s).symm⟩

theorem insertOpinion (h : t.SameRecords u) (o : SignedOpinion) :
    (u.insertOpinion o).1 = (t.insertOpinion o).1 ∧
      (t.insertOpinion o).2.SameRecords (u.insertOpinion o).2 := by
  have hframe := insertOpinion_frame t u.hints o
  rw [← h.eq_with] at hframe
  rw [hframe]
  exact ⟨rfl, rfl, rfl⟩

end SameRecords
end Reputation.Store.Tables
