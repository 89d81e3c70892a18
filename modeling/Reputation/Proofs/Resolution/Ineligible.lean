import Reputation.Proofs.Opinion.Payload
import Reputation.Proofs.Resolution.Verdicts
/-!
Opinions that have no say. Whoever adds opinions that are misfiled, cannot be verified or are dated
later changes no verdict, wherever among the others they are listed and whatever they claim.
-/
namespace Reputation

namespace Testimony

/-- Misfiled, by a signer without a known key, not signed with it, or dated after the instant. -/
def Ineligible (t : Testimony) (asOf : Instant) (id : StatementId) (o : Opinion) : Prop :=
  o.body.statementId ≠ id ∨ t.key? o.body.signerId = none ∨
    (∃ key, t.key? o.body.signerId = some key ∧ o.verifies key = false) ∨ ¬ o.body.date ≤ asOf

/-- The second list is the first one with entries of some kind added in any places. -/
inductive Padded {α : Type} (kind : α → Prop) : List α → List α → Prop where
  | nil : Padded kind [] []
  | keep (x : α) {xs ys : List α} (h : Padded kind xs ys) : Padded kind (x :: xs) (x :: ys)
  | add {x : α} (hx : kind x) {xs ys : List α} (h : Padded kind xs ys) : Padded kind xs (x :: ys)

theorem Padded.filter_eq {α : Type} {kind : α → Prop} {xs ys : List α} (h : Padded kind xs ys)
    {p : α → Bool} (hp : ∀ x, kind x → p x = false) : ys.filter p = xs.filter p := by
  induction h with
  | nil => rfl
  | keep x _ ih => simp only [List.filter_cons, ih]
  | add hx _ ih => simp only [List.filter_cons, hp _ hx, ih, Bool.false_eq_true, if_false]

theorem Ineligible.not_counts {t : Testimony} {asOf : Instant} {id : StatementId} {o : Opinion}
    (h : t.Ineligible asOf id o) : t.counts asOf id o = false := by
  rw [Bool.eq_false_iff]
  intro hcounts
  obtain ⟨hfiled, -, ⟨key, hkey, hverifies⟩, hdated⟩ := counts_iff.mp ⟨hcounts, rfl⟩
  rcases h with hmisfiled | hunknown | ⟨key', hkey', hforged⟩ | hlater
  · exact hmisfiled hfiled
  · rw [hunknown] at hkey
    cases hkey
  · obtain rfl : key = key' := Option.some.inj (hkey.symm.trans hkey')
    rw [hforged] at hverifies
    cases hverifies
  · exact hlater hdated

/-- The same keys, and the same opinions but for some that are not eligible at the instant. -/
structure Extended (t u : Testimony) (asOf : Instant) : Prop where
  opinions : ∀ id, Padded (t.Ineligible asOf id) (t.opinions id) (u.opinions id)
  keys : ∀ signer, u.key? signer = t.key? signer

theorem Extended.inEffect_eq {t u : Testimony} {asOf : Instant} (h : t.Extended u asOf)
    (id : StatementId) : u.inEffect asOf id = t.inEffect asOf id := by
  have hcounts : u.counts asOf id = t.counts asOf id := by
    funext o
    rw [counts, counts, h.keys]
  rw [inEffect, inEffect, latest, latest, hcounts,
    (h.opinions id).filter_eq fun _ => Ineligible.not_counts]

theorem Extended.verdictOn_eq {t u : Testimony} {asOf : Instant} (h : t.Extended u asOf)
    (trust : SignerId → Float) (id : StatementId) (found : Option StatementRecord) :
    u.verdictOn trust asOf id found = t.verdictOn trust asOf id found := by
  cases found with
  | none => rfl
  | some r => simp only [verdictOn, h.inEffect_eq]

end Testimony

namespace Content

structure Extended (c d : Content) (asOf : Instant) : Prop
    extends Testimony.Extended c.toTestimony d.toTestimony asOf where
  records : d.records = c.records

theorem Extended.record?_eq {c d : Content} {asOf : Instant} (h : c.Extended d asOf)
    (id : StatementId) : d.record? id = c.record? id := by
  rw [record?, record?, h.records]

theorem Extended.collected_eq {c d : Content} {asOf : Instant} (h : c.Extended d asOf)
    (ids : List StatementId) : d.collected asOf ids = c.collected asOf ids := by
  simp only [collected, statement?, h.record?_eq, h.inEffect_eq]

end Content

namespace Node

/-- Two nodes that differ in opinions that are not eligible at an instant answer alike at it. -/
theorem ineligible_opinions_ignored {σ τ : Type} {m : Node σ} {n : Node τ} {c d : Content}
    {within : σ → Prop} {within' : τ → Prop} {asOf : Instant}
    (hm : m.service.engine.Reads c within) (hwm : within m.world)
    (hn : n.service.engine.Reads d within') (hwn : within' n.world) (hextended : c.Extended d asOf)
    (htrust : n.service.engine.trust = m.service.engine.trust) (hindex : n.index = m.index) :
    (∀ q, (n.resolve q asOf).1 = (m.resolve q asOf).1) ∧
      ∀ id, (n.resolveStatement id asOf).1 = (m.resolveStatement id asOf).1 := by
  constructor
  · intro q
    rw [resolve, resolve, run_result (Engine.ends_resolve_collected hm m.index q asOf) hwm,
      run_result (Engine.ends_resolve_collected hn n.index q asOf) hwn, hindex, htrust,
      hextended.collected_eq]
  · intro id
    have hends := Engine.ends_resolveStatement_verdictOn hm.toHears (hm.getStatement id) asOf
    have hends' := Engine.ends_resolveStatement_verdictOn hn.toHears (hn.getStatement id) asOf
    rw [resolveStatement, resolveStatement, run_result hends hwm, run_result hends' hwn, htrust,
      hextended.verdictOn_eq, hextended.record?_eq]

open Store (Rehearsal)

/-- An opinion of the next second, with a serial above all others. -/
def later : Opinion :=
  { specimen with body := { specimenBody with
      date := (Instant.ofSeconds? 1).getD .epoch
      serial := 9
      valid := false } }

theorem specimenMemory_extended :
    ((specimenMemory [specimen]).content (specimenMemory_keyed _)).Extended
      ((specimenMemory [forgery, specimen, later]).content (specimenMemory_keyed _)) .epoch where
  keys _ := rfl
  records := rfl
  opinions id := by
    have hkey : (specimenMemory [specimen]).testimony.key? ⟨1⟩ = some specimenKey.publicKey := by
      simp [Store.Memory.testimony, specimenMemory]
    by_cases hid : (⟨2⟩ : StatementId) = id
    · subst hid
      refine .add (.inr (.inr (.inl ⟨_, hkey, forgery_not_verifies⟩))) (.keep specimen ?_)
      exact .add (.inr (.inr (.inr (by decide)))) .nil
    · have hnone : ∀ os : List Opinion, (∀ o ∈ os, o.body.statementId = ⟨2⟩) →
          (specimenMemory os).getOpinions id = [] := by
        intro os hos
        simp only [Store.Memory.getOpinions, specimenMemory, List.filter_nil, List.map_nil,
          List.append_nil, List.filter_eq_nil_iff, decide_eq_true_eq]
        intro o ho heq
        exact hid ((hos o ho).symm.trans heq)
      change Testimony.Padded _ ((specimenMemory _).getOpinions id)
        ((specimenMemory _).getOpinions id)
      rw [hnone _ (by decide), hnone _ (by decide)]
      exact .nil

theorem ineligible_opinions_ignored_forgery :
    let ix := Index.ofStatements [specimenStatement]
    ((specimenNode [forgery, specimen, later] ix).resolve
        (.address (.v4 ⟨0xc0000205, by decide⟩)) .epoch).1 =
      ((specimenNode [specimen] ix).resolve (.address (.v4 ⟨0xc0000205, by decide⟩)) .epoch).1 ∧
    ((specimenNode [forgery, specimen, later] ix).resolveStatement ⟨2⟩ .epoch).1 =
      ((specimenNode [specimen] ix).resolveStatement ⟨2⟩ .epoch).1 := by
  intro ix
  obtain ⟨hresolve, hstatement⟩ := ineligible_opinions_ignored
    (m := specimenNode [specimen] ix) (n := specimenNode [forgery, specimen, later] ix)
    (Rehearsal.reads (fun _ => 1) (specimenMemory_keyed _)) (specimenNode_undisturbed _ _)
    (Rehearsal.reads (fun _ => 1) (specimenMemory_keyed _)) (specimenNode_undisturbed _ _)
    specimenMemory_extended rfl rfl
  exact ⟨hresolve _, hstatement _⟩

end Node
end Reputation
