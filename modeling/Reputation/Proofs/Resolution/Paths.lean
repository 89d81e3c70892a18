import Reputation.Proofs.Resolution.Verdicts
/-!
Two ways to a statement. What the verdict on an entity has to say of a candidate is what the verdict
on that statement alone consists of, in the same order and with the same weights.
-/
namespace Reputation

/-- The contributions to one of the statements, in their order. -/
def Verdict.contributionsTo (v : Verdict) (id : StatementId) : List Contribution :=
  v.contributing.filter (·.statementId = id)

namespace Content

variable {c : Content} {asOf : Instant} {trust : SignerId → Float} {ids : List StatementId}
  {id : StatementId}

/-- Collected alone, a statement has the contributions of its own block. -/
theorem mergeSort_contributions_filter (hids : ids.Nodup) (hid : id ∈ ids)
    (hvalid : (c.statement? id).isSome) :
    ((contributions trust (c.collected asOf ids)).mergeSort Contribution.upTo).filter
        (·.statementId = id) =
      (contributions trust [(id, c.inEffect asOf id)]).mergeSort Contribution.upTo := by
  have hblock : [(id, c.inEffect asOf id)] = c.collected asOf [id] := by
    simp [collected, hvalid]
  rw [hblock]
  apply Contribution.eq_of_pairwise_precedes
  · apply List.Pairwise.filter
    exact Contribution.pairwise_precedes_mergeSort (pairwise_contributions_collected hids)
  · exact Contribution.pairwise_precedes_mergeSort
      (pairwise_contributions_collected (List.nodup_singleton id))
  · intro k
    simp only [List.mem_filter, List.mem_mergeSort, mem_contributions_collected,
      List.mem_singleton, decide_eq_true_eq]
    constructor
    · rintro ⟨⟨-, hstored, hcontributes⟩, rfl⟩
      exact ⟨rfl, hstored, hcontributes⟩
    · rintro ⟨rfl, hstored, hcontributes⟩
      exact ⟨⟨hid, hstored, hcontributes⟩, rfl⟩

theorem mergeSort_contributions_filter_of_none (hnone : c.statement? id = none) :
    ((contributions trust (c.collected asOf ids)).mergeSort Contribution.upTo).filter
      (·.statementId = id) = [] := by
  rw [List.filter_eq_nil_iff]
  intro k hk hkid
  rw [List.mem_mergeSort, mem_contributions_collected] at hk
  rw [of_decide_eq_true hkid, hnone] at hk
  cases hk.2.1

end Content

namespace Node

variable {σ : Type} {n : Node σ} {c : Content} {within : σ → Prop}

/-- A query and the direct request for one of its candidates agree: on the contributions if the
record is valid, and else on there being none. -/
theorem resolve_agrees_with_statement (h : n.service.engine.Reads c within) (hw : within n.world)
    {d : Descriptor} {id : StatementId} (hid : id ∈ Engine.candidates n.index d) (asOf : Instant) :
    ∃ v, (n.resolve d asOf).1 = .ok v ∧
      match c.record? id with
      | none => v.contributionsTo id = [] ∧
        (n.resolveStatement id asOf).1 = .ok (.ofNoData id.text asOf)
      | some r => match Statement.ofRecord r with
        | .ok _ => ∃ w, (n.resolveStatement id asOf).1 = .ok w ∧
          v.contributionsTo id = w.contributing
        | .error _ => v.contributionsTo id = [] ∧
          ∃ fault, (n.resolveStatement id asOf).1 = .error (.invalidRecord fault) := by
  have hresolve := run_result (Engine.ends_resolve_collected h n.index d asOf) hw
  have hone : (n.resolveStatement id asOf).1 = _ :=
    run_result (Engine.ends_resolveStatement_verdictOn h.toHears (h.getStatement id) asOf) hw
  refine ⟨_, hresolve, ?_⟩
  rw [aggregate_eq, hone]
  unfold Verdict.contributionsTo
  rw [Verdict.weighing_contributing]
  cases hr : c.record? id with
  | none =>
    have hnone : c.statement? id = none := by simp [Content.statement?, hr]
    exact ⟨Content.mergeSort_contributions_filter_of_none hnone, rfl⟩
  | some r =>
    cases hs : Statement.ofRecord r with
    | error e =>
      obtain ⟨fault, rfl⟩ := Statement.ofRecord_error hs
      have hnone : c.statement? id = none := by simp [Content.statement?, hr, hs, Except.toOption]
      simp only [Testimony.verdictOn, hs, Except.map]
      exact ⟨Content.mergeSort_contributions_filter_of_none hnone, fault, rfl⟩
    | ok s =>
      have hstored : c.statement? id = some s := by
        simp [Content.statement?, hr, hs, Except.toOption]
      obtain rfl : s.id = id := Content.statement?_id hstored
      simp only [Testimony.verdictOn, hs, Except.map]
      refine ⟨_, rfl, ?_⟩
      rw [aggregate_eq, Verdict.weighing_contributing]
      apply Content.mergeSort_contributions_filter (Engine.toList_nodup _)
      · rwa [Std.TreeSet.mem_toList]
      · rw [hstored]
        rfl

open Store (Memory Rehearsal)

/-- Both numbers are indexed, but the second stands for a record that is invalid. -/
theorem resolve_agrees_with_statement_network :
    let n := specimenNode [forgery, specimen]
      (.ofStatements [specimenStatement, ⟨⟨3⟩, "spammer", "192.0.2.5", none, none⟩])
    ∃ v w, (n.resolve (.address (.v4 ⟨0xc0000205, by decide⟩)) .epoch).1 = .ok v ∧
      (n.resolveStatement ⟨2⟩ .epoch).1 = .ok w ∧ v.contributionsTo ⟨2⟩ = w.contributing ∧
      (∃ k ∈ w.contributing, k.signerId = ⟨1⟩ ∧ k.certainty = 3) ∧ v.contributionsTo ⟨3⟩ = [] ∧
      ∃ fault, (n.resolveStatement ⟨3⟩ .epoch).1 = .error (.invalidRecord fault) := by
  intro n
  let c := (specimenMemory [forgery, specimen]).content (specimenMemory_keyed _)
  have hreads : n.service.engine.Reads c (Rehearsal.Undisturbed (specimenMemory _)) :=
    Rehearsal.reads (fun _ => 1) (specimenMemory_keyed _)
  have hw : Rehearsal.Undisturbed (specimenMemory [forgery, specimen]) n.world :=
    specimenNode_undisturbed _ _
  have hvalid : c.record? ⟨2⟩ = some specimenRecord := by
    rw [Memory.record?_eq]
    decide
  have hhalf : c.record? ⟨3⟩ = some halfRecord := by
    rw [Memory.record?_eq]
    decide
  let q : Descriptor := .address (.v4 ⟨0xc0000205, by decide⟩)
  have hcandidates : (Engine.candidates n.index q).toList = [⟨2⟩, ⟨3⟩] := by decide +kernel
  have hcandidate : ∀ id ∈ [(⟨2⟩ : StatementId), ⟨3⟩], id ∈ Engine.candidates n.index q := by
    intro id hid
    rwa [← Std.TreeSet.mem_toList, hcandidates]
  obtain ⟨v, hv, hagree⟩ :=
    resolve_agrees_with_statement hreads hw (hcandidate ⟨2⟩ (by simp)) .epoch
  obtain ⟨v', hv', hagree'⟩ :=
    resolve_agrees_with_statement hreads hw (hcandidate ⟨3⟩ (by simp)) .epoch
  obtain rfl : v = v' := Except.ok.inj (hv.symm.trans hv')
  rw [hvalid] at hagree
  rw [hhalf] at hagree'
  obtain ⟨w, hw', hsame⟩ := hagree
  refine ⟨v, w, hv, hw', hsame, ?_, hagree'⟩
  have hget := hreads.getStatement ⟨2⟩
  rw [hvalid] at hget
  obtain ⟨contributing, hends, -, hmem⟩ :=
    Engine.ends_resolveStatement (s := specimenStatement) hreads.toHears hget rfl .epoch
  obtain rfl : w = .weighing _ _ contributing :=
    Except.ok.inj (hw'.symm.trans (run_result hends hw))
  rw [Verdict.weighing_contributing]
  have hcontributes : ⟨⟨2⟩, ⟨1⟩, 3, usableWeight (n.service.engine.trust ⟨1⟩)⟩ ∈ contributing :=
    (hmem _).mpr ⟨rfl, ⟨specimen, specimen_decides, rfl, rfl⟩, rfl⟩
  exact ⟨_, hcontributes, rfl, rfl⟩

end Node
end Reputation
