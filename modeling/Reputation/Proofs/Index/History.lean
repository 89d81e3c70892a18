import Reputation.Proofs.Index.Agreement
/-!
Histories of an index. Whatever was inserted, replaced and removed, in whatever order, an index
answers every query as the statements last inserted and not removed since would.
-/
namespace Reputation.Index

/-- An index that some history has made, with the statements last inserted and not removed since. -/
inductive Tracks : Index → Held → Prop where
  | empty : Tracks empty ∅
  | ofStatements {statements : List Statement} (distinct : (statements.map (·.id)).Nodup) :
      Tracks (ofStatements statements) (Held.ofStatements statements)
  | insert {ix : Index} {held : Held} (s : Statement) :
      Tracks ix held → Tracks (ix.insert s) (held.insert s.id s)
  | remove {ix : Index} {held : Held} (id : StatementId) :
      Tracks ix held → Tracks (ix.remove id).1 (held.erase id)

theorem Tracks.agrees {ix : Index} {held : Held} (h : Tracks ix held) : ix.Agrees held := by
  induction h with
  | empty => exact ⟨⟨List.Pairwise.nil, rfl⟩, empty_files⟩
  | ofStatements distinct => exact agrees_ofStatements distinct
  | insert s _ ih => exact agrees_insert ih s
  | remove id _ ih => exact agrees_remove ih id

/-- What an index is asked, answered from the statements that it is to hold. Removing tells whether
the statement was held. -/
theorem tracked_index_answers {ix : Index} {held : Held} (h : Tracks ix held) :
    (∀ p id, id ∈ ix.queryPoint p ↔
      ∃ s r, held[id]? = some s ∧ s.range = some r ∧ r.contains p) ∧
    (∀ q : AddressRange, q.min ≤ q.max → ∀ id, id ∈ ix.queryCovering q ↔
      ∃ s r, held[id]? = some s ∧ s.range = some r ∧ r.covers q) ∧
    (∀ label id, id ∈ ix.queryExact label ↔
      ∃ s, held[id]? = some s ∧ s.range = none ∧
        (s.firstEntity = label ∨ s.secondEntity = some label)) ∧
    (∀ id, ix.contains id = held.contains id) ∧
    ix.size = held.size ∧
    ∀ id, (ix.remove id).2 = held.contains id := by
  have ha := h.agrees
  refine ⟨ha.mem_queryPoint, ?_, ha.mem_queryExact, ha.contains_eq, ha.size_eq, ha.contains_eq⟩
  intro q hq id
  exact ha.mem_queryCovering hq id

/-- Three networks, of which the first becomes a name, the second goes and the third stays. -/
theorem tracked_index_answers_replaced :
    let network (id : Int64) (min max : Bound) : Statement :=
      ⟨⟨id⟩, "spammer", "network", none, some ⟨min, max⟩⟩
    let networks := [network 1 ⟨0, by decide⟩ ⟨255, by decide⟩,
      network 2 ⟨16, by decide⟩ ⟨31, by decide⟩, network 3 ⟨8, by decide⟩ ⟨127, by decide⟩]
    let named : Statement := ⟨⟨1⟩, "spammer", "example.com", none, none⟩
    let ix := (((ofStatements networks).insert named).remove ⟨2⟩).1
    let held := ((Held.ofStatements networks).insert ⟨1⟩ named).erase ⟨2⟩
    Tracks ix held ∧ ⟨3⟩ ∈ ix.queryPoint ⟨20, by decide⟩ ∧ ⟨1⟩ ∉ ix.queryPoint ⟨20, by decide⟩ ∧
      ⟨1⟩ ∈ ix.queryExact "example.com" ∧ (ix.remove ⟨2⟩).2 = false := by
  intro network networks named ix held
  have htracks : Tracks ix held := .remove _ (.insert named (.ofStatements (by decide)))
  obtain ⟨hpoint, -, hexact, -, -, hremove⟩ := tracked_index_answers htracks
  have hthird : held[(⟨3⟩ : StatementId)]? = some (network 3 ⟨8, by decide⟩ ⟨127, by decide⟩) := by
    decide
  have hfirst : held[(⟨1⟩ : StatementId)]? = some named := by decide
  refine ⟨htracks, ?_, ?_, ?_, ?_⟩
  · exact (hpoint _ _).mpr ⟨_, _, hthird, rfl, by decide⟩
  · intro hmem
    obtain ⟨s, r, hs, hr, -⟩ := (hpoint _ _).mp hmem
    rw [hfirst] at hs
    cases hs
    cases hr
  · exact (hexact _ _).mpr ⟨named, hfirst, rfl, Or.inl rfl⟩
  · rw [hremove]
    decide

end Reputation.Index
