import Reputation.Resolution.Engine
/-!
A resolution step by step. What holds of every call, of passing over a candidate and of every look
at the cancel flag, and is handed on from one step to the next, holds of the whole resolution.
-/
namespace Reputation

/-- What stores are asked for in any world, and what is made of the answers. -/
abbrev Routine (α : Type) := (σ : Type) → Engine σ → StateM σ Bool → Attempt σ α

namespace Routine

/-- Holds of the single steps of a resolution, and of one routine after another. -/
structure Composes (Q : (α : Type) → Routine α → Prop) : Prop where
  weighed : ∀ {α : Type} (f : (SignerId → Float) → α), Q α fun _ e _ => pure (f e.trust)
  bind : ∀ {α β : Type} {p : Routine α} {f : α → Routine β}, Q α p → (∀ x, Q β (f x)) →
    Q β fun σ e cancelled => p σ e cancelled >>= fun x => f x σ e cancelled
  getOpinions : ∀ id, Q (List Opinion) fun _ e _ => (e.store.getOpinions id).await
  publicKeyFor : ∀ signer, Q (Option PublicKey) fun _ e _ => (e.keys.publicKeyFor signer).await
  fetchCandidate : ∀ id, Q (Option Statement) fun _ e _ => e.fetchCandidate id
  checkpoint : Q Unit fun _ _ cancelled => Engine.checkpoint cancelled

namespace Composes

variable {Q : (α : Type) → Routine α → Prop}

theorem answer (h : Composes Q) {α : Type} (x : α) : Q α fun _ _ _ => pure x :=
  h.weighed fun _ => x

theorem keyFor (h : Composes Q) (cache : KeyCache) (signer : SignerId) :
    Q _ fun _ e _ => Collection.keyFor e.keys cache signer := by
  unfold Collection.keyFor
  cases cache[signer]? with
  | some key => exact h.answer _
  | none => exact h.bind (h.publicKeyFor signer) fun key => h.answer _

theorem gather (h : Composes Q) (id : StatementId) (asOf : Instant) (os : List Opinion)
    (cache : KeyCache) (latest : Latest) :
    Q _ fun _ e _ => Collection.gather e.keys id asOf os cache latest := by
  induction os generalizing cache latest with
  | nil => exact h.answer _
  | cons o os ih =>
    unfold Collection.gather
    by_cases hid : o.body.statementId = id
    · simp only [hid, ne_eq, not_true_eq_false, if_false]
      refine h.bind (h.keyFor cache _) ?_
      rintro ⟨key, cache'⟩
      cases key with
      | none => exact ih cache' latest
      | some key =>
        by_cases hv : (o.verifies key && decide (o.body.date ≤ asOf)) = true
        · simpa only [hv, if_true] using ih cache' (latest.offer o)
        · simpa only [hv, Bool.false_eq_true, if_false] using ih cache' latest
    · simpa only [ne_eq, hid, not_false_eq_true, if_true] using ih cache latest

theorem collect (h : Composes Q) (cache : KeyCache) (id : StatementId) (asOf : Instant) :
    Q _ fun _ e _ => Collection.collect e.store e.keys cache id asOf := by
  refine h.bind (h.getOpinions id) ?_
  intro fetched
  exact h.bind (h.gather id asOf fetched cache ∅) fun _ => h.answer _

theorem collectAll (h : Composes Q) (asOf : Instant) (ids : List StatementId) (cache : KeyCache) :
    Q _ fun _ e cancelled => e.collectAll asOf cancelled ids cache := by
  induction ids generalizing cache with
  | nil => exact h.answer []
  | cons id ids ih =>
    unfold Engine.collectAll
    refine h.bind h.checkpoint fun _ => ?_
    refine h.bind (h.fetchCandidate id) ?_
    intro found
    cases found with
    | none => exact ih cache
    | some s =>
      refine h.bind (h.collect cache s.id asOf) ?_
      rintro ⟨opinions, cache'⟩
      exact h.bind (ih cache') fun _ => h.answer _

theorem resolveWith (h : Composes Q) (ix : Index) (d : Descriptor) (asOf : Instant) :
    Q _ fun _ e cancelled => e.resolveWith ix d asOf cancelled := by
  refine h.bind (h.collectAll asOf _ ∅) ?_
  intro collected
  refine h.bind h.checkpoint fun _ => ?_
  exact h.weighed fun trust => aggregate d.label asOf collected trust

/-- A single statement has no candidate to pass over: its fetching is a step of another kind. -/
theorem resolveStatement (h : Composes Q) {id : StatementId}
    (hfetch : Q (Option Statement) fun _ e _ => tryCatch (some <$> e.fetch id) fun
      | .notFound _ => pure none
      | other => throw other) (asOf : Instant) :
    Q _ fun _ e _ => e.resolveStatement id asOf := by
  refine h.bind hfetch ?_
  intro found
  cases found with
  | none => exact h.answer _
  | some s =>
    refine h.bind (h.collect ∅ s.id asOf) ?_
    rintro ⟨opinions, cache⟩
    exact h.weighed fun trust => aggregate s.firstEntity asOf [(s.id, opinions)] trust

end Composes
end Routine
end Reputation
