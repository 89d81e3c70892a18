import Reputation.Proofs.Resolution.Exchanges
import Reputation.Proofs.Resolution.Verdicts
/-!
Resolution over stores that may fail. There are no partial verdicts: a resolution that ends with a
verdict has had an answer to every call but those for statements that cannot be decoded, and its
verdict is the one over stores that do not fail and do not have these statements.
-/
namespace Reputation

variable {σ τ : Type}

namespace Engine

variable {e : Engine σ} {cancelled : StateM σ Bool}

theorem leads_noted (e : Engine σ) (cancelled : StateM σ Bool) :
    e.Leads cancelled e.noted (notedFlag cancelled) (fun _ => True)
      fun log world l => l = ⟨world, log⟩ where
  trust := rfl
  statement := by
    rintro log world _ reply after found id rfl h ht -
    exact ⟨reply, _, Call.noted_eq h log, ht, rfl⟩
  opinions := by
    rintro log world _ os after id rfl h -
    exact ⟨_, Call.noted_eq h log, rfl⟩
  key := by
    rintro log world _ k after signer rfl h -
    exact ⟨_, Call.noted_eq h log, rfl⟩
  checkpoint := by
    rintro log world _ after rfl h -
    exact ⟨_, notedFlag_eq h log, rfl⟩

theorem leads_sparing (e : Engine σ) (cancelled : StateM σ Bool) :
    e.Leads cancelled e.sparing.noted (notedFlag cancelled) (fun _ => True)
      fun log world l => l = ⟨world, log.map Exchange.sparing⟩ where
  trust := rfl
  statement := by
    rintro log world _ reply after found id rfl h ht -
    have hspared : e.sparing.store.getStatement id world = (.answer found, after) := by
      rw [← ht.sparing]
      exact congrArg (Prod.map Reply.sparing fun w => w) h
    refine ⟨_, _, Call.noted_eq hspared _, .answer found, ?_⟩
    rw [List.map_append, List.map_singleton, Exchange.sparing, ht.sparing]
  opinions := by
    rintro log world _ os after id rfl h -
    exact ⟨_, Call.noted_eq h _, by rw [List.map_append]; rfl⟩
  key := by
    rintro log world _ k after signer rfl h -
    exact ⟨_, Call.noted_eq h _, by rw [List.map_append]; rfl⟩
  checkpoint := by
    rintro log world _ after rfl h -
    exact ⟨_, notedFlag_eq h _, by rw [List.map_append]; rfl⟩

theorem leads_reads (e : Engine σ) (cancelled : StateM σ Bool) {e' : Engine τ} {c : Content}
    {within : τ → Prop} (h : e'.Reads c within) (htrust : e'.trust = e.trust) :
    e.Leads cancelled e' (pure false) (Exchange.Fits c) fun _ _ w => within w where
  trust := htrust
  statement := by
    intro log world w reply after found id hw _ ht hfits
    obtain ⟨w', hw', hcall⟩ := h.getStatement id w hw
    cases hfits with
    | statement hfits =>
      rw [ht.unique hfits]
      exact ⟨.answer (c.record? id), w', hcall, .answer _, hw'⟩
  opinions := by
    intro log world w os after id hw _ hfits
    obtain ⟨w', hw', hcall⟩ := h.getOpinions id w hw
    cases hfits
    exact ⟨w', hcall, hw'⟩
  key := by
    intro log world w k after signer hw _ hfits
    obtain ⟨w', hw', hcall⟩ := h.publicKeyFor signer w hw
    cases hfits
    exact ⟨w', hcall, hw'⟩
  checkpoint := by
    intro log world w after hw _ _
    exact ⟨w, rfl, hw⟩

/-- A verdict stands on all that was asked for. Only statements that cannot be decoded may have
failed to come, the flag was never seen set, the last time after everything else, and stores that
lack these statements and do not fail give the same verdict. -/
theorem verdict_not_partial {ix : Index} {d : Descriptor} {asOf : Instant} {v : Verdict}
    {world after : σ}
    (h : ExceptT.run (e.resolveWith ix d asOf cancelled) world = (.ok v, after)) :
    ∃ log, ExceptT.run (e.noted.resolveWith ix d asOf (notedFlag cancelled)) ⟨world, []⟩ =
        (.ok v, ⟨after, log⟩) ∧
      (∀ ex ∈ log, ex.Tolerated) ∧ log.getLast? = some (.checkpoint false) ∧
      ExceptT.run (e.sparing.noted.resolveWith ix d asOf (notedFlag cancelled)) ⟨world, []⟩ =
        (.ok v, ⟨after, log.map Exchange.sparing⟩) ∧
      (∀ ex ∈ log.map Exchange.sparing, ex.Answered) ∧
      ∀ {τ : Type} (e' : Engine τ) (c : Content) (within : τ → Prop), e'.Reads c within →
        e'.trust = e.trust → (∀ ex ∈ log, ex.Fits c) →
          Attempt.Ends within (e'.resolve ix d asOf) (.ok v) := by
  obtain ⟨added, htolerated, hlogs⟩ := Routine.accounted_resolveWith h
  refine ⟨added ++ [.checkpoint false], ?_, htolerated, by simp, ?_, ?_, ?_⟩
  · obtain ⟨l, hrun, rfl⟩ := hlogs _ _ _ _ _ (leads_noted e cancelled) (fun _ _ => trivial) [] _ rfl
    exact hrun
  · obtain ⟨l, hrun, rfl⟩ := hlogs _ _ _ _ _ (leads_sparing e cancelled) (fun _ _ => trivial) [] _
      rfl
    exact hrun
  · intro ex hex
    obtain ⟨x, hx, rfl⟩ := List.mem_map.mp hex
    exact (htolerated x hx).answered
  · intro τ e' c within hreads htrust hfits w hw
    obtain ⟨w', hrun, hw'⟩ := hlogs _ _ _ _ _ (leads_reads e cancelled hreads htrust) hfits [] w hw
    exact ⟨w', hw', hrun⟩

theorem fetchCandidate_sparing (e : Engine σ) (id : StatementId) :
    e.sparing.fetchCandidate id = e.fetchCandidate id := by
  funext world
  change ExceptT.run (e.sparing.fetchCandidate id) world = ExceptT.run (e.fetchCandidate id) world
  have hspared : e.sparing.store.getStatement id world =
      (e.store.getStatement id world).map Reply.sparing fun w => w := rfl
  unfold fetchCandidate
  rw [Attempt.run_tryCatch_eq, Attempt.run_tryCatch_eq, Routine.run_fetch_eq, Routine.run_fetch_eq,
    hspared]
  rcases e.store.getStatement id world with ⟨reply, after⟩
  cases reply with
  | answer found => rfl
  | late => rfl
  | failure f =>
    cases hfault : f.recordFault? with
    | none => simp only [Prod.map, Reply.sparing, hfault]
    | some fault =>
      simp only [Prod.map, Reply.sparing, Failure.classify, hfault]

theorem collectAll_sparing (e : Engine σ) (asOf : Instant) (cancelled : StateM σ Bool)
    (ids : List StatementId) (cache : KeyCache) :
    e.sparing.collectAll asOf cancelled ids cache = e.collectAll asOf cancelled ids cache := by
  induction ids generalizing cache with
  | nil => rfl
  | cons id ids ih =>
    have hcollect : ∀ id, Collection.collect e.sparing.store e.sparing.keys cache id asOf =
        Collection.collect e.store e.keys cache id asOf := fun _ => rfl
    simp only [collectAll, fetchCandidate_sparing, hcollect, ih]

/-- A resolution does not tell statements that cannot be decoded from those that are gone. -/
theorem resolveWith_sparing (e : Engine σ) (ix : Index) (d : Descriptor) (asOf : Instant)
    (cancelled : StateM σ Bool) :
    e.sparing.resolveWith ix d asOf cancelled = e.resolveWith ix d asOf cancelled := by
  unfold resolveWith
  rw [collectAll_sparing]
  rfl

open Store (Memory Rehearsal)
open Node (specimenRecord specimenStatement)

def undecodable : Failure :=
  .wrapped "row 3" (.known (.invalidRecord (.malformedBound "x" none)))

def anonymous : Opinion :=
  { specimen with body := { specimenBody with signerId := ⟨9⟩ } }

def rehearsedMemory : Memory :=
  { opinions := [anonymous]
    statements := (∅ : Std.TreeMap StatementId StatementRecord).insert specimenRecord.id
      specimenRecord }

theorem rehearsedMemory_keyed : rehearsedMemory.Keyed :=
  (Memory.keyed_empty [anonymous] ∅).insert specimenRecord

def rehearsed : Engine Rehearsal :=
  ⟨Rehearsal.records, Rehearsal.keys, fun _ => 1⟩

/-- It has another statement, which cannot be decoded, and the flag is set after some more fetches
than will be needed. -/
def faultyRehearsal : Rehearsal where
  memory := { rehearsedMemory with
    statements := rehearsedMemory.statements.insert Node.halfRecord.id Node.halfRecord }
  rules := [⟨.getStatement, some 3, .failure undecodable⟩]
  fetchesLeft := some 5

theorem verdict_not_partial_undecodable :
    let ix := Index.ofStatements
      [specimenStatement, ⟨⟨3⟩, "spammer", "192.0.2.5", none, none⟩]
    let q : Descriptor := .address (.v4 ⟨0xc0000205, by decide⟩)
    ∃ v after log,
      ExceptT.run (rehearsed.noted.resolveWith ix q .epoch (notedFlag Rehearsal.cancelled))
        ⟨faultyRehearsal, []⟩ = (.ok v, ⟨after, log⟩) ∧
      .statement ⟨3⟩ (.failure undecodable) ∈ log ∧ (∀ ex ∈ log, ex.Tolerated) ∧
      Attempt.Ends (Rehearsal.Undisturbed rehearsedMemory) (rehearsed.resolve ix q .epoch)
        (.ok v) := by
  intro ix q
  have hsuccess : (ExceptT.run (rehearsed.resolveWith ix q .epoch Rehearsal.cancelled)
      faultyRehearsal).1.toOption.map (fun _ => ()) = some () := by decide +kernel
  obtain ⟨v, after, hrun, -⟩ := Attempt.run_ok_of_map hsuccess
  obtain ⟨log, hnoted, htolerated, -, -, -, hfailureFree⟩ := verdict_not_partial hrun
  have hlog : log = [.checkpoint false, .statement ⟨2⟩ (.answer specimenRecord),
      .opinions ⟨2⟩ (.answer [anonymous]), .key ⟨9⟩ (.answer none), .checkpoint false,
      .statement ⟨3⟩ (.failure undecodable), .checkpoint false] := by
    have hcandidates : (candidates ix q).toList = [⟨2⟩, ⟨3⟩] := by decide +kernel
    have hcomputed := congrArg (fun run => run.2.log) hnoted
    unfold resolveWith at hcomputed
    rw [hcandidates] at hcomputed
    exact hcomputed.symm
  refine ⟨v, after, log, hnoted, by simp [hlog], htolerated, ?_⟩
  refine hfailureFree rehearsed (rehearsedMemory.content rehearsedMemory_keyed) _
    (Rehearsal.reads (fun _ => 1) rehearsedMemory_keyed) rfl ?_
  have hfound : ∀ (id : StatementId) (found : Option StatementRecord),
      rehearsedMemory.statements[id]? = found →
        (rehearsedMemory.content rehearsedMemory_keyed).record? id = found := by
    intro id found h
    rw [Memory.record?_eq, h]
  rw [hlog]
  simp only [List.forall_mem_cons]
  refine ⟨.checkpoint, .statement ?_, .opinions _, .key _, .checkpoint, .statement ?_, .checkpoint,
    by simp⟩
  · rw [hfound ⟨2⟩ (some specimenRecord) (by decide)]
    exact .answer _
  · rw [hfound ⟨3⟩ none (by decide)]
    exact .undecodable (.wrapped (.known _))

end Engine
end Reputation
