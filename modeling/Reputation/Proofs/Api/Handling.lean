import Reputation.Proofs.Resolution.Mirroring
import Reputation.Api.Service
/-!
Requests side by side. Two services whose stores answer alike from related worlds answer requests
alike; what reading and taking hints leave alone, all requests but submissions leave alone. Only a
submission or a refresh changes the index.
-/
namespace Reputation

open Api (Service Request Response Handling ApiError Route)

variable {σ τ α : Type} {R : σ → τ → Prop}

namespace Api.Service

theorem run_attempt_eq (a : Attempt σ α) (world : σ) :
    ExceptT.run (attempt a) world =
      ((ExceptT.run a world).1.mapError fun e => (ApiError.ofError e).response,
        (ExceptT.run a world).2) :=
  rfl

end Api.Service

namespace Alike

theorem attempt {a : Attempt σ α} {b : Attempt τ α} (hab : Alike R a b) :
    Alike R (Service.attempt a) (Service.attempt b) := by
  intro w v hwv
  obtain ⟨hresult, hafter⟩ := hab w v hwv
  rw [Service.run_attempt_eq, Service.run_attempt_eq, hresult]
  exact ⟨rfl, hafter⟩

theorem orRefuse (status : Nat) (found : Option α) :
    Alike R (Service.orRefuse status found : Handling σ α) (Service.orRefuse status found) := by
  cases found with
  | none => exact .throw _
  | some x => exact .pure x

theorem orFail (result : Except Error α) :
    Alike R (Service.orFail result : Handling σ α) (Service.orFail result) := by
  cases result with
  | ok x => exact .pure x
  | error e => exact .throw _

theorem asOf (now : Instant) (query : List Char) :
    Alike R (Service.asOf now query : Handling σ Instant) (Service.asOf now query) := by
  unfold Service.asOf
  split
  · exact .throw _
  · exact .pure _
  · exact .orRefuse _ _

end Alike

namespace Api.Service

/-- From related worlds the services read alike, and are left related by taking hints. -/
structure Mirrors (svc : Service σ) (svc' : Service τ) (R : σ → τ → Prop) : Prop where
  engine : svc.engine.Mirrors svc'.engine R
  hints : ∀ weights usedAt w v, R w v → R (svc.hints.recordHints weights usedAt w).2
    (svc'.hints.recordHints weights usedAt v).2

/-- The services sign with the same key, and store alike what they sign. -/
structure Twins (svc : Service σ) (svc' : Service τ) (R : σ → τ → Prop) : Prop
    extends svc.Mirrors svc' R where
  writer : svc.writer.Mirrors svc'.writer R
  own : svc'.own = svc.own

variable {svc : Service σ} {svc' : Service τ} {r : Request}

theorem Mirrors.lookUp (h : svc.Mirrors svc' R) (now : Instant) (ix : Index)
    (segment query : List Char) :
    Alike R (svc.lookUp now ix segment query) (svc'.lookUp now ix segment query) := by
  refine (Alike.orRefuse _ _).bind fun entity => ?_
  refine (Alike.asOf now query).bind fun t => ?_
  refine (Alike.orFail _).bind fun d => ?_
  refine (h.engine.resolve ix d t).attempt.bind fun v => ?_
  have hnote : Alike R (svc.noteHints v now) (svc'.noteHints v now) :=
    fun _ _ hwv => ⟨rfl, h.hints v.statementWeights now _ _ hwv⟩
  exact hnote.bind fun _ => .pure _

theorem Mirrors.find (h : svc.Mirrors svc' R) (query : List Char) :
    Alike R (svc.find query) (svc'.find query) := by
  unfold Service.find
  dsimp only
  split
  · exact (h.engine.find _ _ _).attempt.bind fun _ => .pure _
  · exact .throw _

theorem Mirrors.resolveOne (h : svc.Mirrors svc' R) (now : Instant) (segment query : List Char) :
    Alike R (svc.resolveOne now segment query) (svc'.resolveOne now segment query) := by
  refine (Alike.orRefuse _ _).bind fun text => ?_
  refine (Alike.orRefuse _ _).bind fun id => ?_
  refine (Alike.asOf now query).bind fun t => ?_
  exact (h.engine.resolveStatement ⟨id⟩ t).attempt.bind fun _ => .pure _

theorem Mirrors.refresh (h : svc.Mirrors svc' R) : Alike R svc.refresh svc'.refresh :=
  h.engine.freshIndex.attempt.bind fun _ => .pure _

theorem Twins.submit (h : svc.Twins svc' R) (now : Instant) (ix : Index) (r : Request) :
    Alike R (svc.submit now ix r) (svc'.submit now ix r) := by
  unfold Service.submit
  rw [h.own]
  dsimp only
  cases Submission.ofRequest r with
  | error status => exact fun _ _ hwv => ⟨rfl, hwv⟩
  | ok submission =>
    cases svc.own with
    | none => exact fun _ _ hwv => ⟨rfl, hwv⟩
    | some own =>
      simp only [pure_bind]
      have hstatement : Alike R (ExceptT.mk (pure (ofSubmission submission)) : Handling σ _)
          (ExceptT.mk (pure (ofSubmission submission))) :=
        fun _ _ hwv => ⟨rfl, hwv⟩
      refine hstatement.bind fun statement => ?_
      have hsubmit := h.engine.submit h.writer ix statement
        ⟨submission.certainty, submission.comment⟩ own now
      exact hsubmit.attempt.bind fun _ => .pure _

theorem Mirrors.dispatch (h : svc.Mirrors svc' R) (now : Instant) (ix : Index)
    (hother : ¬(r.method = .post ∧ Route.ofPath? r.path = some .statements)) :
    Alike R (svc.dispatch now ix r) (svc'.dispatch now ix r) := by
  unfold Service.dispatch
  dsimp only
  split
  · exact .throw _
  · split
    · exact (h.lookUp now ix _ r.query).map _
    · exact .throw _
  · rename_i hroute
    split
    · exact (h.find r.query).map _
    · split
      · exact absurd ⟨‹_›, hroute⟩ hother
      · exact .throw _
  · split
    · exact (h.resolveOne now _ r.query).map _
    · exact .throw _
  · split
    · exact h.refresh
    · exact .throw _

theorem dispatch_submission (svc : Service σ) (now : Instant) (ix : Index)
    (hmethod : r.method = .post) (hroute : Route.ofPath? r.path = some .statements) :
    svc.dispatch now ix r = svc.submit now ix r := by
  simp [dispatch, hroute, hmethod]

theorem Twins.dispatch (h : svc.Twins svc' R) (now : Instant) (ix : Index) (r : Request) :
    Alike R (svc.dispatch now ix r) (svc'.dispatch now ix r) := by
  by_cases hsubmission : r.method = .post ∧ Route.ofPath? r.path = some .statements
  · rw [dispatch_submission svc now ix hsubmission.1 hsubmission.2,
      dispatch_submission svc' now ix hsubmission.1 hsubmission.2]
    exact h.submit now ix r
  · exact h.toMirrors.dispatch now ix hsubmission

theorem run_handle_eq (svc : Service σ) (now : Instant) (ix : Index) (r : Request) (world : σ) :
    (svc.handle now ix r).run world =
      let done := ExceptT.run (svc.dispatch now ix r) world
      let (response, ix') := match done.1 with
        | .ok out => out
        | .error response => (response, ix)
      ((if r.method = .head then { response with body := none } else response, ix'), done.2) :=
  rfl

theorem Twins.handle (h : svc.Twins svc' R) (now : Instant) (ix : Index) (r : Request) {w : σ}
    {v : τ} (hwv : R w v) :
    ((svc.handle now ix r).run w).1 = ((svc'.handle now ix r).run v).1 ∧
      R ((svc.handle now ix r).run w).2 ((svc'.handle now ix r).run v).2 := by
  obtain ⟨hout, hafter⟩ := h.dispatch now ix r w v hwv
  rw [run_handle_eq, run_handle_eq]
  dsimp only
  rw [hout]
  exact ⟨rfl, hafter⟩

variable {P : σ → Prop} {ix : Index} {world : σ}

/-- Neither reading nor taking hints makes a difference to `P`. -/
structure Preserves (svc : Service σ) (P : σ → Prop) : Prop where
  engine : svc.engine.Preserves P
  hints : ∀ weights usedAt world, P world → P (svc.hints.recordHints weights usedAt world).2

theorem Preserves.mirrors (h : svc.Preserves P) : svc.Mirrors svc fun w v => w = v ∧ P w where
  engine := h.engine.mirrors
  hints := by
    rintro weights usedAt w v ⟨rfl, hw⟩
    exact ⟨rfl, h.hints weights usedAt w hw⟩

theorem Preserves.handle (h : svc.Preserves P) (now : Instant) (ix : Index)
    (hother : ¬(r.method = .post ∧ Route.ofPath? r.path = some .statements)) (hw : P world) :
    P ((svc.handle now ix r).run world).2 :=
  (h.mirrors.dispatch now ix hother).keeps world hw

/-- A handling that ends with the index it was given, if it does not end early. -/
def Keeping (ix : Index) (a : Handling σ (Response × Index)) : Prop :=
  ∀ world out after, ExceptT.run a world = (.ok out, after) → out.2 = ix

theorem keeping_throw (ix : Index) (response : Response) :
    Keeping ix (throw response : Handling σ (Response × Index)) := by
  intro world out after h
  cases h

theorem keeping_map (ix : Index) (a : Handling σ Response) :
    Keeping ix ((fun response => (response, ix)) <$> a) := by
  intro world out after h
  rw [Attempt.run_map_eq] at h
  obtain ⟨hout, -⟩ := Prod.mk.inj h
  cases hrun : (ExceptT.run a world).1 with
  | error e =>
    rw [hrun] at hout
    cases hout
  | ok response =>
    rw [hrun] at hout
    cases hout
    rfl

theorem keeping_dispatch (svc : Service σ) (now : Instant) (ix : Index)
    (hother : r.method = .post →
      Route.ofPath? r.path ≠ some .statements ∧ Route.ofPath? r.path ≠ some .refresh) :
    Keeping ix (svc.dispatch now ix r) := by
  unfold dispatch
  dsimp only
  split
  · exact keeping_throw ix _
  · split
    · exact keeping_map ix _
    · exact keeping_throw ix _
  · rename_i hroute
    split
    · exact keeping_map ix _
    · split
      · exact absurd hroute (hother ‹_›).1
      · exact keeping_throw ix _
  · split
    · exact keeping_map ix _
    · exact keeping_throw ix _
  · rename_i hroute
    split
    · exact absurd hroute (hother ‹_›).2
    · exact keeping_throw ix _

theorem index_handle (svc : Service σ) (now : Instant) (ix : Index) (world : σ)
    (hother : r.method = .post →
      Route.ofPath? r.path ≠ some .statements ∧ Route.ofPath? r.path ≠ some .refresh) :
    ((svc.handle now ix r).run world).1.2 = ix := by
  rw [run_handle_eq]
  rcases hrun : ExceptT.run (svc.dispatch now ix r) world with ⟨out | out, after⟩
  · rfl
  · exact keeping_dispatch svc now ix hother world out after hrun

theorem run_handle_refresh (svc : Service σ) (now : Instant) (ix : Index) (world : σ)
    (hmethod : r.method = .post) (hroute : Route.ofPath? r.path = some .refresh) :
    (svc.handle now ix r).run world =
      match ExceptT.run svc.engine.freshIndex world with
      | (.ok ix', after) =>
        ((⟨200, some (.object [("statements", .int ix'.size)])⟩, ix'), after)
      | (.error e, after) => (((ApiError.ofError e).response, ix), after) := by
  have hdispatch : svc.dispatch now ix r = svc.refresh := by
    simp [dispatch, hroute, hmethod]
  rw [run_handle_eq, hdispatch, refresh, Attempt.run_bind_eq, run_attempt_eq]
  rcases ExceptT.run svc.engine.freshIndex world with ⟨e | ix', after⟩
  · simp [hmethod, Except.mapError]
  · simp only [hmethod, Except.mapError, reduceCtorEq, if_false]
    rfl

theorem run_handle_submission (svc : Service σ) (now : Instant) (ix : Index) (world : σ)
    (hmethod : r.method = .post) (hroute : Route.ofPath? r.path = some .statements) :
    (svc.handle now ix r).run world =
      match ExceptT.run (svc.submit now ix r) world with
      | (.ok out, after) => (out, after)
      | (.error response, after) => ((response, ix), after) := by
  rw [run_handle_eq, dispatch_submission svc now ix hmethod hroute]
  rcases ExceptT.run (svc.submit now ix r) world with ⟨response | ⟨response, ix'⟩, after⟩
  · simp [hmethod]
  · simp [hmethod]

end Api.Service
end Reputation
