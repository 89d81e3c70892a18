import Reputation.Proofs.Resolution.Faults
import Reputation.Proofs.Resolution.Mirroring
/-!
How a resolution fails. It ends with a verdict, cancelled, or with the store unavailable, unless the
opinions on a candidate or the key of a signer fail to come for an invalid record: then it ends with
the fault of that record, though nobody has asked for a statement.
-/
namespace Reputation

variable {σ α β : Type} {added added' : List Exchange}

/-- The ends of a resolution that its callers are told of. -/
inductive Surfaced : Except Error α → Prop where
  | ok (x : α) : Surfaced (.ok x)
  | storeUnavailable (cause : Failure) : Surfaced (.error (.storeUnavailable cause))
  | cancelled : Surfaced (.error .cancelled)

def Reply.fault? : Reply α → Option RecordFault
  | .failure f => f.recordFault?
  | _ => none

/-- The invalid record for which opinions or a key failed to come. -/
def Exchange.fault? : Exchange → Option RecordFault
  | .opinions _ reply => reply.fault?
  | .key _ reply => reply.fault?
  | _ => none

/-- The result surfaces, unless the exchanges have such a fault. Then it is that fault. -/
def EndsOn (added : List Exchange) (result : Except Error α) : Prop :=
  match added.findSome? Exchange.fault? with
  | none => Surfaced result
  | some fault => result = .error (.invalidRecord fault)

namespace EndsOn

theorem of_surfaced {result : Except Error α} (hadded : added.findSome? Exchange.fault? = none)
    (h : Surfaced result) : EndsOn added result := by
  unfold EndsOn
  rw [hadded]
  exact h

theorem faultless {x : α} (h : EndsOn added (.ok x)) :
    added.findSome? Exchange.fault? = none := by
  unfold EndsOn at h
  split at h
  · assumption
  · cases h

theorem surfaced_iff {result : Except Error α} (h : EndsOn added result) :
    Surfaced result ↔ ∀ ex ∈ added, ex.fault? = none := by
  rw [← List.findSome?_eq_none_iff]
  unfold EndsOn at h
  split at h
  · rename_i hfaultless
    exact iff_of_true h hfaultless
  · rename_i fault hfault
    rw [hfault, h]
    constructor
    · intro hsurfaced
      cases hsurfaced
    · intro hnone
      cases hnone

theorem eq_error_iff {result : Except Error α} {fault : RecordFault} (h : EndsOn added result) :
    result = .error (.invalidRecord fault) ↔ added.findSome? Exchange.fault? = some fault := by
  unfold EndsOn at h
  split at h
  · rename_i hfaultless
    rw [hfaultless]
    constructor
    · rintro rfl
      cases h
    · intro hsome
      cases hsome
  · rename_i fault' hfault
    rw [hfault, h]
    simp

theorem append {x : α} {result : Except Error β} (h : EndsOn added (.ok x))
    (h' : EndsOn added' result) : EndsOn (added ++ added') result := by
  have hfaultless := h.faultless
  unfold EndsOn at h' ⊢
  rwa [List.findSome?_append, hfaultless, Option.none_or]

theorem error {e : Error} (h : EndsOn added (.error e : Except Error α)) :
    EndsOn added (.error e : Except Error β) := by
  unfold EndsOn at *
  split at h
  · cases h with
    | storeUnavailable cause => exact .storeUnavailable cause
    | cancelled => exact .cancelled
  · cases h
    rfl

theorem reply (reply : Reply α) {ex : Exchange} (hex : ex.fault? = reply.fault?) :
    EndsOn [ex] reply.result := by
  unfold EndsOn
  rw [List.findSome?_singleton, hex]
  cases reply with
  | answer x => exact .ok x
  | late => exact .storeUnavailable _
  | failure f =>
    cases hfault : f.recordFault? with
    | none =>
      simp only [Reply.fault?, Reply.result, Failure.classify, hfault]
      exact .storeUnavailable f
    | some fault => simp only [Reply.fault?, Reply.result, Failure.classify, hfault]

end EndsOn

namespace Routine

/-- From wherever it is run, the routine ends on what it has exchanged. -/
def Surfaces (p : Routine α) : Prop :=
  ∀ (σ : Type) (e : Engine σ) (cancelled : StateM σ Bool) (l : Logged σ),
    ∃ added, (ExceptT.run (p _ e.noted (notedFlag cancelled)) l).2.log = l.log ++ added ∧
      EndsOn added (ExceptT.run (p _ e.noted (notedFlag cancelled)) l).1

theorem surfaces_weighed (f : (SignerId → Float) → α) : Surfaces fun _ e _ => pure (f e.trust) :=
  fun _ e _ l => ⟨[], (List.append_nil l.log).symm, .of_surfaced rfl (.ok (f e.trust))⟩

theorem surfaces_bind {p : Routine α} {f : α → Routine β} (hp : p.Surfaces)
    (hf : ∀ x, (f x).Surfaces) :
    Surfaces fun σ e cancelled => p σ e cancelled >>= fun x => f x σ e cancelled := by
  intro σ e cancelled l
  obtain ⟨added, hlog, hends⟩ := hp σ e cancelled l
  dsimp only
  rw [Attempt.run_bind_eq]
  rcases hrun : ExceptT.run (p _ e.noted (notedFlag cancelled)) l with ⟨result, between⟩
  rw [hrun] at hlog hends
  cases result with
  | error err => exact ⟨added, hlog, hends.error⟩
  | ok x =>
    obtain ⟨added', hlog', hends'⟩ := hf x σ e cancelled between
    refine ⟨added ++ added', ?_, hends.append hends'⟩
    rw [hlog', hlog, List.append_assoc]

theorem surfaces_getOpinions (id : StatementId) :
    Surfaces fun _ e _ => (e.store.getOpinions id).await :=
  fun _ e _ l => ⟨[.opinions id (e.store.getOpinions id l.world).1], rfl, .reply _ rfl⟩

theorem surfaces_publicKeyFor (signer : SignerId) :
    Surfaces fun _ e _ => (e.keys.publicKeyFor signer).await :=
  fun _ e _ l => ⟨[.key signer (e.keys.publicKeyFor signer l.world).1], rfl, .reply _ rfl⟩

/-- Statements are different: one that cannot be decoded is passed over. -/
theorem surfaced_fetchCandidate (e : Engine σ) (id : StatementId) (world : σ) :
    Surfaced (ExceptT.run (e.fetchCandidate id) world).1 ∧
      (ExceptT.run (e.fetchCandidate id) world).2 = (e.store.getStatement id world).2 := by
  rcases hget : e.store.getStatement id world with ⟨reply, after⟩
  have htaken : ∀ found, reply.Taken found →
      Surfaced (ExceptT.run (e.fetchCandidate id) world).1 ∧
        (ExceptT.run (e.fetchCandidate id) world).2 = after := by
    intro found ht
    rw [run_fetchCandidate_of_taken hget ht]
    exact ⟨.ok _, rfl⟩
  cases reply with
  | answer found => exact htaken found (.answer found)
  | late =>
    unfold Engine.fetchCandidate
    rw [Attempt.run_tryCatch_eq, run_fetch_eq, hget]
    exact ⟨.storeUnavailable _, rfl⟩
  | failure f =>
    cases hfault : f.recordFault? with
    | some fault => exact htaken none (.undecodable (Failure.causedByRecord_of_recordFault hfault))
    | none =>
      unfold Engine.fetchCandidate
      rw [Attempt.run_tryCatch_eq, run_fetch_eq, hget]
      simp only [Failure.classify, hfault]
      exact ⟨.storeUnavailable f, rfl⟩

theorem surfaces_fetchCandidate (id : StatementId) : Surfaces fun _ e _ => e.fetchCandidate id := by
  intro σ e cancelled l
  obtain ⟨hsurfaced, hafter⟩ := surfaced_fetchCandidate e.noted id l
  refine ⟨[.statement id (e.store.getStatement id l.world).1], ?_, .of_surfaced rfl hsurfaced⟩
  rw [hafter]
  rfl

theorem surfaces_checkpoint : Surfaces fun _ _ cancelled => Engine.checkpoint cancelled := by
  intro σ e cancelled l
  refine ⟨[.checkpoint (cancelled l.world).1], ?_⟩
  rcases hlook : cancelled l.world with ⟨set, after⟩
  dsimp only
  rw [run_checkpoint_eq, notedFlag_eq hlook]
  cases set with
  | true => exact ⟨rfl, .of_surfaced rfl .cancelled⟩
  | false => exact ⟨rfl, .of_surfaced rfl (.ok ())⟩

theorem composes_surfaces : Composes fun _ p => p.Surfaces where
  weighed := surfaces_weighed
  bind := surfaces_bind
  getOpinions := surfaces_getOpinions
  publicKeyFor := surfaces_publicKeyFor
  fetchCandidate := surfaces_fetchCandidate
  checkpoint := surfaces_checkpoint

end Routine

theorem Call.noted_mirrors (note : Reply α → Exchange) (call : Call σ α) :
    (call.noted note).Mirrors (fun l w => l.world = w) call := by
  rintro l w rfl
  exact ⟨rfl, rfl⟩

namespace Engine

theorem noted_mirrors (e : Engine σ) : e.noted.Mirrors e fun l w => l.world = w where
  trust := rfl
  getStatement id := Call.noted_mirrors _ (e.store.getStatement id)
  findStatements name first second := Call.noted_mirrors _ (e.store.findStatements name first second)
  scanStatements := Call.noted_mirrors _ e.store.scanStatements
  getOpinions id := Call.noted_mirrors _ (e.store.getOpinions id)
  publicKeyFor signer := Call.noted_mirrors _ (e.keys.publicKeyFor signer)

theorem alike_noted_resolveWith (e : Engine σ) (cancelled : StateM σ Bool) (ix : Index)
    (d : Descriptor) (asOf : Instant) :
    Alike (fun l w => l.world = w) (e.noted.resolveWith ix d asOf (notedFlag cancelled))
      (e.resolveWith ix d asOf cancelled) := by
  have hlook : Alike (fun l w => l.world = w) (checkpoint (notedFlag cancelled))
      (checkpoint cancelled) := by
    refine .checkpoint ?_
    rintro l w rfl
    exact ⟨rfl, rfl⟩
  exact (e.noted_mirrors.composes hlook).resolveWith ix d asOf

/-- Whatever its stores do, a resolution ends with a verdict, cancelled or with the store
unavailable just if no opinions and no key failed to come for an invalid record; else it ends with
the fault of the first such record. -/
theorem resolveWith_surfaces (e : Engine σ) (ix : Index) (d : Descriptor) (asOf : Instant)
    (cancelled : StateM σ Bool) (world : σ) :
    let run := ExceptT.run (e.resolveWith ix d asOf cancelled) world
    ∃ log, ExceptT.run (e.noted.resolveWith ix d asOf (notedFlag cancelled)) ⟨world, []⟩ =
        (run.1, ⟨run.2, log⟩) ∧
      (Surfaced run.1 ↔ ∀ ex ∈ log, ex.fault? = none) ∧
      ∀ fault, run.1 = .error (.invalidRecord fault) ↔
        log.findSome? Exchange.fault? = some fault := by
  intro run
  obtain ⟨log, hlog, hends⟩ :=
    Routine.composes_surfaces.resolveWith ix d asOf σ e cancelled ⟨world, []⟩
  obtain ⟨hresult, hafter⟩ := alike_noted_resolveWith e cancelled ix d asOf ⟨world, []⟩ world rfl
  rcases hnoted : ExceptT.run (e.noted.resolveWith ix d asOf (notedFlag cancelled)) ⟨world, []⟩
    with ⟨result, after, noted⟩
  rw [hnoted] at hlog hends hresult hafter
  obtain rfl : result = run.1 := hresult
  obtain rfl : after = run.2 := hafter
  obtain rfl : noted = log := hlog
  exact ⟨noted, rfl, hends.surfaced_iff, fun fault => hends.eq_error_iff⟩

open Store (Rehearsal)
open Node (specimenStatement)

def muteRehearsal : Rehearsal where
  memory := rehearsedMemory
  rules := [⟨.getOpinions, none, .failure undecodable⟩]

/-- The query asks for no statement, and yet it ends with an invalid record. -/
theorem invalid_opinions_surface :
    let ix := Index.ofStatements [specimenStatement]
    let q : Descriptor := .address (.v4 ⟨0xc0000205, by decide⟩)
    let run := ExceptT.run (rehearsed.resolveWith ix q .epoch Rehearsal.cancelled) muteRehearsal
    run.1 = .error (.invalidRecord (.malformedBound "x" none)) ∧ ¬Surfaced run.1 := by
  intro ix q run
  have hcandidates : (candidates ix q).toList = [⟨2⟩] := by decide +kernel
  have hrun : run.1 = .error (.invalidRecord (.malformedBound "x" none)) := by
    unfold run resolveWith
    rw [hcandidates]
    rfl
  refine ⟨hrun, ?_⟩
  rw [hrun]
  intro h
  cases h

end Engine
end Reputation
