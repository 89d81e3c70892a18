import Reputation.Proofs.Resolution.Candidates
import Reputation.Proofs.Resolution.Counting
import Reputation.Proofs.Resolution.Weighing
import Reputation.Node
/-!
What resolution answers over stores that do not fail. The verdict weighs exactly the deciding
opinions on the statements that the query concerns, in strict order.
-/
namespace Reputation

variable {σ : Type}

theorem AddressRange.ofColumns_error {lower upper : Option Bound} {err : Error}
    (h : ofColumns lower upper = .error err) : ∃ fault, err = .invalidRecord fault := by
  unfold ofColumns at h
  split at h
  · cases h
  · unfold ofBounds at h
    split at h <;> cases h
    exact ⟨_, rfl⟩
  · cases h
    exact ⟨_, rfl⟩

theorem Statement.ofRecord_error {r : StatementRecord} {err : Error}
    (h : ofRecord r = .error err) : ∃ fault, err = .invalidRecord fault := by
  unfold ofRecord at h
  split at h
  · cases h
    exact ⟨_, rfl⟩
  · split at h
    · cases h
      exact ⟨_, rfl⟩
    · split at h
      · cases h
        exact ⟨_, rfl⟩
      · split at h <;> cases h
        rename_i hcolumns
        obtain ⟨fault, rfl⟩ := AddressRange.ofColumns_error hcolumns
        exact ⟨_, rfl⟩

namespace Testimony

/-- The contribution of a signer whose deciding opinion is valid, weighed by the trust in it. -/
def Contributes (t : Testimony) (trust : SignerId → Float) (asOf : Instant) (k : Contribution) :
    Prop :=
  (∃ o, t.Decides asOf k.statementId k.signerId o ∧ o.body.valid ∧
    o.body.certainty = k.certainty) ∧
  k.weight = usableWeight (trust k.signerId)

theorem exists_inEffect_iff {t : Testimony} {asOf : Instant} {trust : SignerId → Float}
    {id : StatementId} {k : Contribution} :
    (∃ o ∈ t.inEffect asOf id, Contribution.ofOpinion trust id o = k) ↔
      k.statementId = id ∧ t.Contributes trust asOf k := by
  constructor
  · rintro ⟨o, ho, rfl⟩
    obtain ⟨hdecides, hvalid⟩ := mem_inEffect.mp ho
    exact ⟨rfl, ⟨o, hdecides, hvalid, rfl⟩, rfl⟩
  · rintro ⟨rfl, ⟨o, hdecides, hvalid, hcertainty⟩, hweight⟩
    have hsigner := hdecides.1.signer_eq
    refine ⟨o, mem_inEffect.mpr ⟨hsigner ▸ hdecides, hvalid⟩, ?_⟩
    rw [Contribution.ofOpinion, hsigner, hcertainty, ← hweight]

/-- The verdict on a statement by its record: no data without one, and an error if it is invalid. -/
def verdictOn (t : Testimony) (trust : SignerId → Float) (asOf : Instant) (id : StatementId) :
    Option StatementRecord → Except Error Verdict
  | none => .ok (.ofNoData id.text asOf)
  | some r => (Statement.ofRecord r).map fun s =>
    aggregate s.firstEntity asOf [(s.id, t.inEffect asOf s.id)] trust

end Testimony

namespace Content

/-- Which opinions are collected on each of the numbers that stand for a valid statement. -/
def collected (c : Content) (asOf : Instant) (ids : List StatementId) :
    List (StatementId × List Opinion) :=
  (ids.filter fun id => (c.statement? id).isSome).map fun id => (id, c.inEffect asOf id)

variable {c : Content} {asOf : Instant} {trust : SignerId → Float}

theorem statement?_id {id : StatementId} {s : Statement} (h : c.statement? id = some s) :
    s.id = id := by
  obtain ⟨r, -, rfl, hs⟩ := statement?_eq_some.mp h
  exact Statement.ofRecord_id hs

theorem mem_contributions_collected {ids : List StatementId} {k : Contribution} :
    k ∈ contributions trust (c.collected asOf ids) ↔
      k.statementId ∈ ids ∧ (c.statement? k.statementId).isSome ∧
        c.Contributes trust asOf k := by
  rw [mem_contributions]
  constructor
  · rintro ⟨entry, hentry, hk⟩
    obtain ⟨id, hid, rfl⟩ := List.mem_map.mp hentry
    obtain ⟨hmem, hsome⟩ := List.mem_filter.mp hid
    obtain ⟨rfl, hcontributes⟩ := Testimony.exists_inEffect_iff.mp hk
    exact ⟨hmem, hsome, hcontributes⟩
  · rintro ⟨hmem, hsome, hcontributes⟩
    refine ⟨(k.statementId, c.inEffect asOf k.statementId), ?_, ?_⟩
    · exact List.mem_map_of_mem (List.mem_filter.mpr ⟨hmem, hsome⟩)
    · exact Testimony.exists_inEffect_iff.mpr ⟨rfl, hcontributes⟩

theorem pairwise_contributions_collected {ids : List StatementId} (h : ids.Nodup) :
    (contributions trust (c.collected asOf ids)).Pairwise fun a b =>
      ¬ (a.statementId = b.statementId ∧ a.signerId = b.signerId) := by
  refine pairwise_contributions ?_ ?_
  · rw [collected, List.pairwise_map]
    exact List.Pairwise.filter _ h
  · intro entry hentry
    obtain ⟨id, -, rfl⟩ := List.mem_map.mp hentry
    exact Testimony.pairwise_inEffect

end Content

namespace Engine

variable {e : Engine σ} {c : Content} {within : σ → Prop}

theorem ends_fetch_none {id : StatementId} (h : (e.store.getStatement id).Answers within none) :
    Attempt.Ends within (e.fetch id) (.error (.notFound ("statement " ++ id.text))) :=
  Attempt.ends_bind (Attempt.ends_await h) (Attempt.ends_throw _)

theorem ends_fetch_some {id : StatementId} {r : StatementRecord}
    (h : (e.store.getStatement id).Answers within (some r)) :
    Attempt.Ends within (e.fetch id) (Statement.ofRecord r) :=
  Attempt.ends_bind (Attempt.ends_await h) (Attempt.ends_ofExcept _)

theorem ends_fetchCandidate (h : e.Reads c within) (id : StatementId) :
    Attempt.Ends within (e.fetchCandidate id) (.ok (c.statement? id)) := by
  unfold fetchCandidate
  have hget := h.getStatement id
  cases hr : c.record? id with
  | none =>
    have hs : c.statement? id = none := by simp [Content.statement?, hr]
    rw [hr] at hget
    rw [hs]
    refine Attempt.ends_tryCatch_error (Attempt.ends_map some (ends_fetch_none hget)) ?_
    exact Attempt.ends_pure none
  | some r =>
    have hs : c.statement? id = (Statement.ofRecord r).toOption := by
      simp [Content.statement?, hr]
    rw [hr] at hget
    have hfetch := ends_fetch_some hget
    rw [hs]
    cases hv : Statement.ofRecord r with
    | ok s =>
      rw [hv] at hfetch
      exact Attempt.ends_tryCatch_ok (Attempt.ends_map some hfetch)
    | error err =>
      obtain ⟨fault, rfl⟩ := Statement.ofRecord_error hv
      rw [hv] at hfetch
      refine Attempt.ends_tryCatch_error (Attempt.ends_map some hfetch) ?_
      exact Attempt.ends_pure none

theorem ends_resolveStatement_verdictOn {t : Testimony} (h : e.Hears t within) {id : StatementId}
    {found : Option StatementRecord} (hget : (e.store.getStatement id).Answers within found)
    (asOf : Instant) :
    Attempt.Ends within (e.resolveStatement id asOf) (t.verdictOn e.trust asOf id found) := by
  unfold resolveStatement Testimony.verdictOn
  cases found with
  | none =>
    have hfetch := Attempt.ends_map some (ends_fetch_none hget)
    refine Attempt.ends_bind (x := none) (Attempt.ends_tryCatch_error hfetch ?_)
      (Attempt.ends_pure _)
    exact Attempt.ends_pure none
  | some r =>
    have hfetch := Attempt.ends_map some (ends_fetch_some hget)
    cases hv : Statement.ofRecord r with
    | ok s =>
      rw [hv] at hfetch
      obtain ⟨cache, -, hcollect⟩ := Collection.ends_collect h Collection.faithful_empty s.id asOf
      simp only [hv, Except.map]
      refine Attempt.ends_bind (Attempt.ends_tryCatch_ok hfetch) ?_
      exact Attempt.ends_bind hcollect (Attempt.ends_pure _)
    | error err =>
      obtain ⟨fault, rfl⟩ := Statement.ofRecord_error hv
      rw [hv] at hfetch
      simp only [hv, Except.map]
      refine Attempt.ends_bind_error (Attempt.ends_tryCatch_error hfetch ?_)
      exact Attempt.ends_throw _

theorem ends_resolveStatement {t : Testimony} (h : e.Hears t within) {r : StatementRecord}
    {s : Statement} (hr : (e.store.getStatement s.id).Answers within (some r))
    (hv : Statement.ofRecord r = .ok s) (asOf : Instant) :
    ∃ contributing, Attempt.Ends within (e.resolveStatement s.id asOf)
        (.ok (.weighing s.firstEntity asOf contributing)) ∧
      contributing.Pairwise Contribution.Precedes ∧
      ∀ k, k ∈ contributing ↔ k.statementId = s.id ∧ t.Contributes e.trust asOf k := by
  refine ⟨(contributions e.trust [(s.id, t.inEffect asOf s.id)]).mergeSort Contribution.upTo,
    ?_, ?_, ?_⟩
  · have hends := ends_resolveStatement_verdictOn h hr asOf
    simpa only [Testimony.verdictOn, hv, Except.map, aggregate_eq] using hends
  · refine Contribution.pairwise_precedes_mergeSort (pairwise_contributions ?_ ?_)
    · exact List.pairwise_singleton _ _
    · intro entry hentry
      rw [List.mem_singleton.mp hentry]
      exact Testimony.pairwise_inEffect
  · intro k
    rw [List.mem_mergeSort, mem_contributions, ← Testimony.exists_inEffect_iff]
    simp

theorem ends_checkpoint : Attempt.Ends within (checkpoint (pure false)) (.ok ()) :=
  fun world hw => ⟨world, hw, rfl⟩

theorem ends_collectAll (h : e.Reads c within) (asOf : Instant) (ids : List StatementId)
    {cache : KeyCache} (hc : Collection.Faithful c.toTestimony cache) :
    Attempt.Ends within (e.collectAll asOf (pure false) ids cache)
      (.ok (c.collected asOf ids)) := by
  induction ids generalizing cache with
  | nil => exact Attempt.ends_pure []
  | cons id ids ih =>
    unfold collectAll
    refine Attempt.ends_bind ends_checkpoint (Attempt.ends_bind (ends_fetchCandidate h id) ?_)
    cases hs : c.statement? id with
    | none =>
      have hskip : c.collected asOf (id :: ids) = c.collected asOf ids := by
        simp [Content.collected, hs]
      simpa only [hskip] using ih hc
    | some s =>
      have hcons : c.collected asOf (id :: ids) =
          (id, c.inEffect asOf id) :: c.collected asOf ids := by
        simp [Content.collected, hs]
      have hid : s.id = id := Content.statement?_id hs
      obtain ⟨cache', hc', hcollect⟩ := Collection.ends_collect h.toHears hc id asOf
      rw [hcons]
      simp only [hid]
      exact Attempt.ends_bind hcollect (Attempt.ends_bind (ih hc') (Attempt.ends_pure _))

theorem toList_nodup (ids : StatementIds) : ids.toList.Nodup := by
  refine Std.TreeSet.distinct_toList.imp ?_
  rintro a _ hne rfl
  exact hne Std.ReflCmp.compare_self

theorem ends_resolve_collected (h : e.Reads c within) (ix : Index) (d : Descriptor)
    (asOf : Instant) : Attempt.Ends within (e.resolve ix d asOf)
      (.ok (aggregate d.label asOf (c.collected asOf (candidates ix d).toList) e.trust)) :=
  Attempt.ends_bind (ends_collectAll h asOf _ Collection.faithful_empty)
    (Attempt.ends_bind ends_checkpoint (Attempt.ends_pure _))

/-- The verdict that a resolution ends with, by what it weighs. -/
theorem ends_resolve (h : e.Reads c within) {ix : Index} {held : Held} (hix : ix.Agrees held)
    (d : Descriptor) (asOf : Instant) :
    ∃ contributing, Attempt.Ends within (e.resolve ix d asOf)
        (.ok (.weighing d.label asOf contributing)) ∧
      contributing.Pairwise Contribution.Precedes ∧
      ∀ k, k ∈ contributing ↔ (∃ s, held[k.statementId]? = some s ∧ s.Concerns d) ∧
        (c.statement? k.statementId).isSome ∧ c.Contributes e.trust asOf k := by
  refine ⟨(contributions e.trust (c.collected asOf (candidates ix d).toList)).mergeSort
    Contribution.upTo, ends_resolve_collected h ix d asOf, ?_, ?_⟩
  · refine Contribution.pairwise_precedes_mergeSort ?_
    exact Content.pairwise_contributions_collected (toList_nodup (candidates ix d))
  · intro k
    rw [List.mem_mergeSort, Content.mem_contributions_collected, Std.TreeSet.mem_toList,
      mem_candidates hix]

end Engine
end Reputation
