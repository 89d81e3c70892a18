import Reputation.Proofs.Resolution.Routine
import Reputation.Proofs.Resolution.Submission
/-!
What a resolution exchanges with its stores. Calls may fail in any way and the cancel flag may be
set at any time; a resolution that ends with a verdict is accounted for by exchanges that were
tolerable, and whatever goes through the same exchanges ends with the same verdict.
-/
namespace Reputation

variable {σ τ α β : Type}

/-- An invalid record is among the causes. -/
inductive Failure.CausedByRecord : Failure → Prop where
  | known (fault : RecordFault) : CausedByRecord (.known (.invalidRecord fault))
  | unavailable {cause : Failure} (h : CausedByRecord cause) :
      CausedByRecord (.known (.storeUnavailable cause))
  | wrapped {message : String} {cause : Failure} (h : CausedByRecord cause) :
      CausedByRecord (.wrapped message cause)

theorem Failure.CausedByRecord.recordFault {f : Failure} (h : f.CausedByRecord) :
    ∃ fault, f.recordFault? = some fault := by
  induction h with
  | known fault => exact ⟨fault, rfl⟩
  | unavailable _ ih => exact ih
  | wrapped _ ih => exact ih

theorem Failure.causedByRecord_of_recordFault {fault : RecordFault} :
    ∀ {f : Failure}, f.recordFault? = some fault → f.CausedByRecord
  | .known (.invalidRecord _), _ => .known _
  | .known (.storeUnavailable _), h => .unavailable (causedByRecord_of_recordFault h)
  | .wrapped _ _, h => .wrapped (causedByRecord_of_recordFault h)

theorem Failure.causedByRecord_iff {f : Failure} :
    f.CausedByRecord ↔ ∃ fault, f.classify = .invalidRecord fault := by
  constructor
  · intro h
    obtain ⟨fault, hfault⟩ := h.recordFault
    exact ⟨fault, by rw [classify, hfault]⟩
  · rintro ⟨fault, h⟩
    unfold classify at h
    split at h
    · exact causedByRecord_of_recordFault ‹_›
    · cases h

/-- What a candidate's record is taken to be. One that cannot be decoded is as good as none. -/
inductive Reply.Taken : Reply (Option StatementRecord) → Option StatementRecord → Prop where
  | answer (found : Option StatementRecord) : Taken (.answer found) found
  | undecodable {f : Failure} (h : f.CausedByRecord) : Taken (.failure f) none

theorem Reply.Taken.unique {reply : Reply (Option StatementRecord)}
    {found found' : Option StatementRecord} (h : reply.Taken found) (h' : reply.Taken found') :
    found = found' := by
  cases h <;> cases h' <;> rfl

/-- The statement that a candidate's record stands for, if any. -/
def Statement.ofFound? (found : Option StatementRecord) : Option Statement :=
  found.bind fun r => (ofRecord r).toOption

/-- A call and how it came back, or a look at the cancel flag and what it was. -/
inductive Exchange where
  | statement (id : StatementId) (reply : Reply (Option StatementRecord))
  | listing (reply : Reply (List StatementRecord))
  | opinions (id : StatementId) (reply : Reply (List Opinion))
  | key (signer : SignerId) (reply : Reply (Option PublicKey))
  | checkpoint (cancelled : Bool)

namespace Exchange

/-- Nothing failed but for a statement that cannot be decoded, and the flag was not set. -/
inductive Tolerated : Exchange → Prop where
  | statement (id : StatementId) {reply : Reply (Option StatementRecord)}
      {found : Option StatementRecord} (h : reply.Taken found) : Tolerated (.statement id reply)
  | opinions (id : StatementId) (os : List Opinion) : Tolerated (.opinions id (.answer os))
  | key (signer : SignerId) (k : Option PublicKey) : Tolerated (.key signer (.answer k))
  | checkpoint : Tolerated (.checkpoint false)

inductive Answered : Exchange → Prop where
  | statement (id : StatementId) (found : Option StatementRecord) :
      Answered (.statement id (.answer found))
  | opinions (id : StatementId) (os : List Opinion) : Answered (.opinions id (.answer os))
  | key (signer : SignerId) (k : Option PublicKey) : Answered (.key signer (.answer k))
  | checkpoint : Answered (.checkpoint false)

/-- The content has what was answered, and lacks the statements that could not be decoded. -/
inductive Fits (c : Content) : Exchange → Prop where
  | statement {id : StatementId} {reply : Reply (Option StatementRecord)}
      (h : reply.Taken (c.record? id)) : Fits c (.statement id reply)
  | opinions (id : StatementId) : Fits c (.opinions id (.answer (c.opinions id)))
  | key (signer : SignerId) : Fits c (.key signer (.answer (c.key? signer)))
  | checkpoint : Fits c (.checkpoint false)

end Exchange

/-- A world and what has been exchanged with it. -/
structure Logged (σ : Type) where
  world : σ
  log : List Exchange

def Call.noted (note : Reply α → Exchange) (call : Call σ α) : Call (Logged σ) α := fun l =>
  ((call l.world).1, ⟨(call l.world).2, l.log ++ [note (call l.world).1]⟩)

theorem Call.noted_eq {note : Reply α → Exchange} {call : Call σ α} {world after : σ}
    {reply : Reply α} (h : call world = (reply, after)) (log : List Exchange) :
    call.noted note ⟨world, log⟩ = (reply, ⟨after, log ++ [note reply]⟩) := by
  rw [noted, h]

/-- The same engine, with everything that is exchanged noted down. -/
def Engine.noted (e : Engine σ) : Engine (Logged σ) where
  store :=
    { getStatement := fun id => (e.store.getStatement id).noted (.statement id)
      findStatements := fun name first second =>
        (e.store.findStatements name first second).noted .listing
      scanStatements := e.store.scanStatements.noted .listing
      getOpinions := fun id => (e.store.getOpinions id).noted (.opinions id) }
  keys := { publicKeyFor := fun signer => (e.keys.publicKeyFor signer).noted (.key signer) }
  trust := e.trust

def notedFlag (cancelled : StateM σ Bool) : StateM (Logged σ) Bool := fun l =>
  ((cancelled l.world).1, ⟨(cancelled l.world).2, l.log ++ [.checkpoint (cancelled l.world).1]⟩)

theorem notedFlag_eq {cancelled : StateM σ Bool} {world after : σ} {set : Bool}
    (h : cancelled world = (set, after)) (log : List Exchange) :
    notedFlag cancelled ⟨world, log⟩ = (set, ⟨after, log ++ [.checkpoint set]⟩) := by
  rw [notedFlag, h]

/-- Undecodable statements turned into absent ones, other replies left as they are. -/
def Reply.sparing : Reply (Option StatementRecord) → Reply (Option StatementRecord)
  | .failure f => match f.recordFault? with
    | some _ => .answer none
    | none => .failure f
  | reply => reply

def Exchange.sparing : Exchange → Exchange
  | .statement id reply => .statement id reply.sparing
  | other => other

/-- The same engine over a store that lacks just the statements that cannot be decoded. -/
def Engine.sparing (e : Engine σ) : Engine σ :=
  { e with
    store := { e.store with
      getStatement := fun statement world =>
        (e.store.getStatement statement world).map Reply.sparing id } }

theorem Reply.Taken.sparing {reply : Reply (Option StatementRecord)}
    {found : Option StatementRecord} (h : reply.Taken found) : reply.sparing = .answer found := by
  cases h with
  | answer => rfl
  | undecodable h =>
    obtain ⟨fault, hfault⟩ := h.recordFault
    rw [Reply.sparing, hfault]

theorem Exchange.Tolerated.answered {x : Exchange} (h : x.Tolerated) : x.sparing.Answered := by
  cases h with
  | statement id h =>
    rw [Exchange.sparing, h.sparing]
    exact .statement id _
  | opinions id os => exact .opinions id os
  | key signer k => exact .key signer k
  | checkpoint => exact .checkpoint

/-- What succeeds with the one engine succeeds alike with the other, as long as what has been
exchanged passes. Their worlds stay related after every exchange. -/
structure Engine.Leads (e : Engine σ) (cancelled : StateM σ Bool) (e' : Engine τ)
    (cancelled' : StateM τ Bool) (passes : Exchange → Prop) (R : List Exchange → σ → τ → Prop) :
    Prop where
  trust : e'.trust = e.trust
  statement : ∀ {log world w reply after found} (id), R log world w →
    e.store.getStatement id world = (reply, after) → reply.Taken found →
    passes (.statement id reply) → ∃ reply' w', e'.store.getStatement id w = (reply', w') ∧
      reply'.Taken found ∧ R (log ++ [.statement id reply]) after w'
  opinions : ∀ {log world w os after} (id), R log world w →
    e.store.getOpinions id world = (.answer os, after) → passes (.opinions id (.answer os)) →
    ∃ w', e'.store.getOpinions id w = (.answer os, w') ∧
      R (log ++ [.opinions id (.answer os)]) after w'
  key : ∀ {log world w k after} (signer), R log world w →
    e.keys.publicKeyFor signer world = (.answer k, after) → passes (.key signer (.answer k)) →
    ∃ w', e'.keys.publicKeyFor signer w = (.answer k, w') ∧
      R (log ++ [.key signer (.answer k)]) after w'
  checkpoint : ∀ {log world w after}, R log world w → cancelled world = (false, after) →
    passes (.checkpoint false) →
    ∃ w', cancelled' w = (false, w') ∧ R (log ++ [.checkpoint false]) after w'

namespace Routine

/-- These are the exchanges on the way from one world to the other, to the result `x`. Whoever
follows along succeeds alike. -/
def Logs (p : Routine α) (e : Engine σ) (cancelled : StateM σ Bool) (world : σ) (x : α)
    (added : List Exchange) (after : σ) : Prop :=
  ∀ (τ : Type) (e' : Engine τ) (cancelled' : StateM τ Bool) (passes : Exchange → Prop)
    (R : List Exchange → σ → τ → Prop), e.Leads cancelled e' cancelled' passes R →
    (∀ ex ∈ added, passes ex) → ∀ log w, R log world w →
      ∃ w', ExceptT.run (p τ e' cancelled') w = (.ok x, w') ∧ R (log ++ added) after w'

/-- A success is accounted for by what was exchanged, all of which was tolerable. -/
def Accounted (p : Routine α) : Prop :=
  ∀ (σ : Type) (e : Engine σ) (cancelled : StateM σ Bool) (world after : σ) (x : α),
    ExceptT.run (p σ e cancelled) world = (.ok x, after) →
      ∃ added, (∀ ex ∈ added, ex.Tolerated) ∧ p.Logs e cancelled world x added after

variable {e : Engine σ} {cancelled : StateM σ Bool} {world between after : σ}

theorem Logs.bind {p : Routine α} {f : α → Routine β} {x : α} {y : β}
    {added added' : List Exchange} (hp : p.Logs e cancelled world x added between)
    (hf : (f x).Logs e cancelled between y added' after) :
    Logs (fun σ e cancelled => p σ e cancelled >>= fun x => f x σ e cancelled) e cancelled world y
      (added ++ added') after := by
  intro τ e' cancelled' passes R hleads hpasses log w hw
  obtain ⟨w₁, hrun, hw₁⟩ := hp τ e' cancelled' passes R hleads
    (fun ex hex => hpasses ex (List.mem_append_left _ hex)) log w hw
  obtain ⟨w₂, hrun', hw₂⟩ := hf τ e' cancelled' passes R hleads
    (fun ex hex => hpasses ex (List.mem_append_right _ hex)) _ w₁ hw₁
  refine ⟨w₂, ?_, ?_⟩
  · rw [Attempt.run_bind_eq, hrun]
    exact hrun'
  · rwa [← List.append_assoc]

theorem accounted_bind {p : Routine α} {f : α → Routine β} (hp : p.Accounted)
    (hf : ∀ x, (f x).Accounted) :
    Accounted fun σ e cancelled => p σ e cancelled >>= fun x => f x σ e cancelled := by
  intro σ e cancelled world after y h
  obtain ⟨x, between, hrun, hrest⟩ := Attempt.run_bind_ok h
  obtain ⟨added, htolerated, hlogs⟩ := hp _ _ _ _ _ _ hrun
  obtain ⟨added', htolerated', hlogs'⟩ := hf x _ _ _ _ _ _ hrest
  refine ⟨added ++ added', ?_, hlogs.bind hlogs'⟩
  intro ex hex
  rcases List.mem_append.mp hex with hex | hex
  · exact htolerated ex hex
  · exact htolerated' ex hex

theorem logs_pure (f : (SignerId → Float) → α) (e : Engine σ) (cancelled : StateM σ Bool)
    (world : σ) : Logs (fun _ e _ => pure (f e.trust)) e cancelled world (f e.trust) [] world := by
  intro τ e' cancelled' passes R hleads _ log w hw
  refine ⟨w, ?_, by rwa [List.append_nil]⟩
  rw [← hleads.trust]
  rfl

theorem accounted_pure (f : (SignerId → Float) → α) : Accounted fun _ e _ => pure (f e.trust) := by
  intro σ e cancelled world after y h
  cases h
  exact ⟨[], by simp, logs_pure f e cancelled _⟩

theorem accounted_single {p : Routine α}
    (h : ∀ (σ : Type) (e : Engine σ) (cancelled : StateM σ Bool) (world after : σ) (x : α),
      ExceptT.run (p σ e cancelled) world = (.ok x, after) →
        ∃ ex : Exchange, ex.Tolerated ∧ p.Logs e cancelled world x [ex] after) : p.Accounted := by
  intro σ e cancelled world after x hrun
  obtain ⟨ex, htolerated, hlogs⟩ := h σ e cancelled world after x hrun
  exact ⟨[ex], by simpa using htolerated, hlogs⟩

theorem run_await_answer {call : Call σ α} {x : α} (h : call world = (.answer x, after)) :
    ExceptT.run call.await world = (.ok x, after) := by
  change (call world).map Reply.result id = _
  rw [h]
  rfl

theorem run_checkpoint_eq (cancelled : StateM σ Bool) (world : σ) :
    ExceptT.run (Engine.checkpoint cancelled) world =
      match cancelled world with
      | (true, after) => (.error .cancelled, after)
      | (false, after) => (.ok (), after) := by
  rcases h : cancelled world with ⟨set, after⟩
  have hlift : ExceptT.run (ExceptT.lift cancelled : Attempt σ Bool) world = (.ok set, after) := by
    change Prod.map Except.ok id (cancelled world) = _
    rw [h]
    rfl
  unfold Engine.checkpoint
  rw [Attempt.run_bind_eq, hlift]
  cases set <;> rfl

theorem run_checkpoint_ok {x : Unit}
    (h : ExceptT.run (Engine.checkpoint cancelled) world = (.ok x, after)) :
    cancelled world = (false, after) := by
  rw [run_checkpoint_eq] at h
  rcases hlook : cancelled world with ⟨set, between⟩
  rw [hlook] at h
  cases set with
  | true => cases h
  | false =>
    cases h
    rfl

theorem logs_checkpoint (h : cancelled world = (false, after)) :
    Logs (fun _ _ cancelled => Engine.checkpoint cancelled) e cancelled world ()
      [.checkpoint false] after := by
  intro τ e' cancelled' passes R hleads hpasses log w hw
  obtain ⟨w', hlook, hw'⟩ := hleads.checkpoint hw h (hpasses _ (by simp))
  exact ⟨w', by rw [run_checkpoint_eq, hlook], hw'⟩

theorem accounted_checkpoint : Accounted fun _ _ cancelled => Engine.checkpoint cancelled := by
  apply accounted_single
  intro σ e cancelled world after x h
  exact ⟨.checkpoint false, .checkpoint, logs_checkpoint (run_checkpoint_ok h)⟩

theorem accounted_getOpinions (id : StatementId) :
    Accounted fun _ e _ => (e.store.getOpinions id).await := by
  apply accounted_single
  intro σ e cancelled world after os h
  refine ⟨.opinions id (.answer os), .opinions id os, ?_⟩
  intro τ e' cancelled' passes R hleads hpasses log w hw
  obtain ⟨w', hcall, hw'⟩ := hleads.opinions id hw (Attempt.run_await_ok h) (hpasses _ (by simp))
  exact ⟨w', run_await_answer hcall, hw'⟩

theorem accounted_publicKeyFor (signer : SignerId) :
    Accounted fun _ e _ => (e.keys.publicKeyFor signer).await := by
  apply accounted_single
  intro σ e cancelled world after k h
  refine ⟨.key signer (.answer k), .key signer k, ?_⟩
  intro τ e' cancelled' passes R hleads hpasses log w hw
  obtain ⟨w', hcall, hw'⟩ := hleads.key signer hw (Attempt.run_await_ok h) (hpasses _ (by simp))
  exact ⟨w', run_await_answer hcall, hw'⟩

theorem run_fetch_eq (e : Engine σ) (id : StatementId) (world : σ) :
    ExceptT.run (some <$> e.fetch id) world =
      match e.store.getStatement id world with
      | (.answer (some r), after) => ((Statement.ofRecord r).map some, after)
      | (.answer none, after) => (.error (.notFound ("statement " ++ id.text)), after)
      | (.failure f, after) => (.error f.classify, after)
      | (.late, after) => (.error (.storeUnavailable .elapsed), after) := by
  rcases h : e.store.getStatement id world with ⟨reply, after⟩
  have hawait : ExceptT.run (e.store.getStatement id).await world = (reply.result, after) := by
    change Prod.map Reply.result (fun w => w) (e.store.getStatement id world) = _
    rw [h]
    rfl
  unfold Engine.fetch
  rw [map_bind, Attempt.run_bind_eq, hawait]
  cases reply with
  | answer found =>
    cases found with
    | none => rfl
    | some r =>
      cases hr : Statement.ofRecord r with
      | ok s => simp only [Reply.result, hr, Attempt.ofExcept, map_pure]; rfl
      | error err => simp only [Reply.result, hr, Attempt.ofExcept]; rfl
  | failure f => rfl
  | late => rfl

theorem run_fetchCandidate_of_taken {id : StatementId} {reply : Reply (Option StatementRecord)}
    {found : Option StatementRecord} (h : e.store.getStatement id world = (reply, after))
    (ht : reply.Taken found) :
    ExceptT.run (e.fetchCandidate id) world = (.ok (Statement.ofFound? found), after) := by
  unfold Engine.fetchCandidate
  rw [Attempt.run_tryCatch_eq, run_fetch_eq, h]
  cases ht with
  | answer found =>
    cases found with
    | none => rfl
    | some r =>
      cases hr : Statement.ofRecord r with
      | ok s => simp [Statement.ofFound?, hr, Except.map, Except.toOption]
      | error err =>
        obtain ⟨fault, rfl⟩ := Statement.ofRecord_error hr
        simp only [Statement.ofFound?, hr, Except.map, Except.toOption, Option.bind_some]
        rfl
  | undecodable hcause =>
    obtain ⟨fault, hclassify⟩ := Failure.causedByRecord_iff.mp hcause
    simp only [hclassify]
    rfl

theorem taken_of_run_fetchCandidate {id : StatementId} {x : Option Statement}
    (h : ExceptT.run (e.fetchCandidate id) world = (.ok x, after)) :
    ∃ reply found, e.store.getStatement id world = (reply, after) ∧ reply.Taken found ∧
      x = Statement.ofFound? found := by
  rcases hget : e.store.getStatement id world with ⟨reply, between⟩
  have htaken : ∀ found, reply.Taken found → ∃ reply' found',
      (reply, between) = (reply', after) ∧ reply'.Taken found' ∧ x = Statement.ofFound? found' := by
    intro found ht
    rw [run_fetchCandidate_of_taken hget ht] at h
    cases h
    exact ⟨reply, found, rfl, ht, rfl⟩
  cases reply with
  | answer found => exact htaken found (.answer found)
  | failure f =>
    cases hfault : f.recordFault? with
    | some fault => exact htaken none (.undecodable (Failure.causedByRecord_of_recordFault hfault))
    | none =>
      unfold Engine.fetchCandidate at h
      rw [Attempt.run_tryCatch_eq, run_fetch_eq, hget] at h
      simp only [Failure.classify, hfault] at h
      cases h
  | late =>
    unfold Engine.fetchCandidate at h
    rw [Attempt.run_tryCatch_eq, run_fetch_eq, hget] at h
    cases h

theorem accounted_fetchCandidate (id : StatementId) :
    Accounted fun _ e _ => e.fetchCandidate id := by
  apply accounted_single
  intro σ e cancelled world after x h
  obtain ⟨reply, found, hget, ht, rfl⟩ := taken_of_run_fetchCandidate h
  refine ⟨.statement id reply, .statement id ht, ?_⟩
  intro τ e' cancelled' passes R hleads hpasses log w hw
  obtain ⟨reply', w', hget', ht', hw'⟩ := hleads.statement id hw hget ht (hpasses _ (by simp))
  exact ⟨w', run_fetchCandidate_of_taken hget' ht', hw'⟩

theorem composes_accounted : Composes fun _ p => p.Accounted where
  weighed := accounted_pure
  bind := accounted_bind
  getOpinions := accounted_getOpinions
  publicKeyFor := accounted_publicKeyFor
  fetchCandidate := accounted_fetchCandidate
  checkpoint := accounted_checkpoint

/-- The last thing that a resolution does before it weighs is to look at the flag. -/
theorem accounted_resolveWith {ix : Index} {d : Descriptor} {asOf : Instant} {v : Verdict}
    (h : ExceptT.run (e.resolveWith ix d asOf cancelled) world = (.ok v, after)) :
    ∃ added, (∀ ex ∈ added ++ [.checkpoint false], ex.Tolerated) ∧
      Logs (fun _ e cancelled => e.resolveWith ix d asOf cancelled) e cancelled world v
        (added ++ [.checkpoint false]) after := by
  obtain ⟨collected, between, hcollect, hrest⟩ := Attempt.run_bind_ok h
  obtain ⟨x, between', hlook, hweigh⟩ := Attempt.run_bind_ok hrest
  obtain ⟨added, htolerated, hlogs⟩ := composes_accounted.collectAll asOf _ ∅ _ _ _ _ _ _ hcollect
  cases hweigh
  refine ⟨added, ?_, ?_⟩
  · intro ex hex
    rcases List.mem_append.mp hex with hex | hex
    · exact htolerated ex hex
    · rw [List.mem_singleton.mp hex]
      exact .checkpoint
  · refine hlogs.bind ((logs_checkpoint (run_checkpoint_ok hlook)).bind ?_)
    exact logs_pure (fun trust => aggregate d.label asOf collected trust) e cancelled _

end Routine
end Reputation
