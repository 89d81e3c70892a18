import Reputation.Proofs.Address.NetworkText
import Reputation.Proofs.Index.History
import Reputation.Proofs.Resolution.Reading
/-!
Which statements a query concerns. The candidates that an index gives are the statements that it
holds and that the query concerns: none is missing and none is there for another reason.
-/
namespace Reputation

theorem Descriptor.range?_inOrder {d : Descriptor} {r : AddressRange} (h : d.range? = some r) :
    r.min ≤ r.max := by
  cases d with
  | name s => cases h
  | address a =>
    cases h
    exact Nat.le_refl _
  | network n => exact Network.range?_inOrder h

/-- A statement without a range concerns its labels, one with a range what the range covers. -/
def Statement.Concerns (s : Statement) (d : Descriptor) : Prop :=
  match s.range with
  | none => s.firstEntity = d.label ∨ s.secondEntity = some d.label
  | some r => ∃ q, d.range? = some q ∧ r.covers q

theorem Engine.mem_candidates {ix : Index} {held : Held} (h : ix.Agrees held) {d : Descriptor}
    {id : StatementId} :
    id ∈ candidates ix d ↔ ∃ s, held[id]? = some s ∧ s.Concerns d := by
  have hexact : id ∈ ix.queryExact d.label ↔ ∃ s, held[id]? = some s ∧ s.range = none ∧
      (s.firstEntity = d.label ∨ s.secondEntity = some d.label) := h.mem_queryExact _ _
  unfold candidates
  cases hd : d.range? with
  | none =>
    simp only [hexact]
    refine exists_congr fun s => and_congr_right fun _ => ?_
    cases hr : s.range <;> simp [Statement.Concerns, hr, hd]
  | some q =>
    simp only [Std.TreeSet.mem_union_iff, hexact,
      h.mem_queryCovering (Descriptor.range?_inOrder hd)]
    constructor
    · rintro (⟨s, hs, hr, hlabel⟩ | ⟨s, r, hs, hr, hcov⟩)
      · exact ⟨s, hs, by simpa [Statement.Concerns, hr] using hlabel⟩
      · exact ⟨s, hs, by simpa [Statement.Concerns, hr, hd] using hcov⟩
    · rintro ⟨s, hs, hconcerns⟩
      cases hr : s.range with
      | none => exact Or.inl ⟨s, hs, hr, by simpa [Statement.Concerns, hr] using hconcerns⟩
      | some r => exact Or.inr ⟨s, r, hs, hr, by simpa [Statement.Concerns, hr, hd] using hconcerns⟩

namespace Content

variable (c : Content)

def statements : List Statement :=
  c.records.filterMap fun r => (Statement.ofRecord r).toOption

theorem statements_distinct : (c.statements.map (·.id)).Nodup := by
  refine (keys_filterMap_sublist ?_ c.records).nodup c.distinct
  intro r s hs
  exact Statement.ofRecord_id (toOption_eq_some.mp hs)

def held : Held := .ofStatements c.statements

theorem getElem?_held (id : StatementId) : c.held[id]? = c.statement? id := by
  rw [held, Held.getElem?_ofStatements _ c.statements_distinct]
  ext s
  rw [find?_key_eq_some c.statements_distinct, statement?_eq_some, statements, List.mem_filterMap]
  simp only [toOption_eq_some]
  constructor
  · rintro ⟨⟨r, hr, hs⟩, hid⟩
    exact ⟨r, hr, (Statement.ofRecord_id hs).symm.trans hid, hs⟩
  · rintro ⟨r, hr, hid, hs⟩
    exact ⟨⟨r, hr, hs⟩, (Statement.ofRecord_id hs).trans hid⟩

theorem agrees_ofRecords : (Index.ofRecords c.records).Agrees c.held :=
  Index.agrees_ofStatements c.statements_distinct

end Content
end Reputation
