import Reputation.Proofs.Resolution.Surfacing
/-!
Keys that are kept from one collection to the next. Over stores that do not fail each signer of an
opinion that is filed rightly is asked about once, at the first such opinion, whether it has a key
or not. What is collected is what is collected without anything kept.
-/
namespace Reputation

variable {σ : Type}

/-- Calls for opinions and keys do not fail. What they answer may differ from one time to the
next. -/
structure Engine.Responds (e : Engine σ) (within : σ → Prop) : Prop where
  getOpinions : ∀ id world, within world →
    ∃ os after, within after ∧ e.store.getOpinions id world = (.answer os, after)
  publicKeyFor : ∀ signer world, within world →
    ∃ key after, within after ∧ e.keys.publicKeyFor signer world = (.answer key, after)

/-- The key store never changes its answer about a signer. -/
def Engine.Knows (e : Engine σ) (key? : SignerId → Option PublicKey) (within : σ → Prop) : Prop :=
  ∀ signer, (e.keys.publicKeyFor signer).Answers within (key? signer)

theorem Engine.Hears.responds {e : Engine σ} {t : Testimony} {within : σ → Prop}
    (h : e.Hears t within) : e.Responds within where
  getOpinions id world hw := by
    obtain ⟨after, hafter, hcall⟩ := h.getOpinions id world hw
    exact ⟨_, after, hafter, hcall⟩
  publicKeyFor signer world hw := by
    obtain ⟨after, hafter, hcall⟩ := h.publicKeyFor signer world hw
    exact ⟨_, after, hafter, hcall⟩

def Exchange.asked? : Exchange → Option SignerId
  | .key signer _ => some signer
  | _ => none

def asked (log : List Exchange) : List SignerId := log.filterMap Exchange.asked?

def signersOn (id : StatementId) (os : List Opinion) : List SignerId :=
  (os.filter (·.body.statementId = id)).map (·.body.signerId)

/-- An opinion of the signer was fetched, and it is on the statement that it was fetched for. -/
def Fetched (log : List Exchange) (signer : SignerId) : Prop :=
  ∃ id os, .opinions id (.answer os) ∈ log ∧ signer ∈ signersOn id os

theorem asked_snoc_key (log : List Exchange) (signer : SignerId) (reply : Reply (Option PublicKey)) :
    asked (log ++ [.key signer reply]) = asked log ++ [signer] := by
  simp [asked, Exchange.asked?]

theorem asked_snoc_opinions (log : List Exchange) (id : StatementId) (reply : Reply (List Opinion)) :
    asked (log ++ [.opinions id reply]) = asked log := by
  simp [asked, Exchange.asked?]

theorem fetched_snoc_key {log : List Exchange} {signer g : SignerId}
    {reply : Reply (Option PublicKey)} :
    Fetched (log ++ [.key signer reply]) g ↔ Fetched log g := by
  simp [Fetched]

theorem fetched_snoc_opinions {log : List Exchange} {id : StatementId} {os : List Opinion}
    {g : SignerId} :
    Fetched (log ++ [.opinions id (.answer os)]) g ↔ Fetched log g ∨ g ∈ signersOn id os := by
  simp only [Fetched, List.mem_append, List.mem_singleton, Exchange.opinions.injEq,
    Reply.answer.injEq, or_and_right, exists_or]
  refine or_congr Iff.rfl ?_
  constructor
  · rintro ⟨_, _, ⟨rfl, rfl⟩, hg⟩
    exact hg
  · exact fun hg => ⟨id, os, ⟨rfl, rfl⟩, hg⟩

namespace Collection

variable {e : Engine σ} {within : σ → Prop} {cache : KeyCache} {l : Logged σ}

/-- Collects for one call after another, with the keys that the calls before have looked up. Notes
the world that each call begins in. -/
def collectEach (store : RecordStore σ) (keys : KeyStore σ) :
    List (StatementId × Instant) → KeyCache → Attempt σ (List (σ × List Opinion))
  | [], _ => pure []
  | (id, asOf) :: calls, cache => do
    let before ← (get : Attempt σ σ)
    let (opinions, cache) ← collect store keys cache id asOf
    return (before, opinions) :: (← collectEach store keys calls cache)

/-- The cache between two lookups. It has just the signers that were asked about, each of them once,
and those of the fetched opinions that are still pending are to come. -/
structure Tracks (e : Engine σ) (within : σ → Prop) (pending : List SignerId) (cache : KeyCache)
    (l : Logged σ) : Prop where
  world : within l.world
  nodup : (asked l.log).Nodup
  asked_iff : ∀ signer, signer ∈ asked l.log ↔ signer ∈ cache
  fetched_iff : ∀ signer, Fetched l.log signer ↔ signer ∈ cache ∨ signer ∈ pending
  faithful : ∀ t : Testimony, e.Knows t.key? within → Faithful t cache

theorem tracks_empty {world : σ} (hw : within world) : Tracks e within [] ∅ ⟨world, []⟩ where
  world := hw
  nodup := List.nodup_nil
  asked_iff signer := by simp [asked]
  fetched_iff signer := by simp [Fetched]
  faithful t _ := faithful_empty

theorem Tracks.kept {signer : SignerId} {pending : List SignerId}
    (ht : Tracks e within (signer :: pending) cache l) (hmem : signer ∈ cache) :
    Tracks e within pending cache l := by
  refine { ht with fetched_iff := ?_ }
  intro g
  rw [ht.fetched_iff, List.mem_cons]
  constructor
  · rintro (hg | rfl | hg)
    · exact .inl hg
    · exact .inl hmem
    · exact .inr hg
  · exact Or.imp_right .inr

theorem Tracks.looked {signer : SignerId} {pending : List SignerId} {key : Option PublicKey}
    {after : σ} (ht : Tracks e within (signer :: pending) cache l) (hnew : signer ∉ cache)
    (hafter : within after) (hcall : e.keys.publicKeyFor signer l.world = (.answer key, after)) :
    Tracks e within pending (cache.insert signer key)
      ⟨after, l.log ++ [.key signer (.answer key)]⟩ := by
  have hmem : ∀ g, g ∈ cache.insert signer key ↔ g ∈ cache ∨ g = signer := by
    intro g
    rw [Std.TreeMap.mem_insert, Std.LawfulEqCmp.compare_eq_iff_eq, or_comm, eq_comm]
  refine ⟨hafter, ?_, ?_, ?_, ?_⟩
  · rw [asked_snoc_key, List.nodup_append_comm]
    exact List.nodup_cons.mpr ⟨mt (ht.asked_iff signer).mp hnew, ht.nodup⟩
  · intro g
    rw [asked_snoc_key, List.mem_append, List.mem_singleton, ht.asked_iff, hmem]
  · intro g
    rw [fetched_snoc_key, ht.fetched_iff, hmem, List.mem_cons, or_assoc]
  · intro t hknows
    obtain ⟨after', -, hcall'⟩ := hknows signer l.world ht.world
    obtain rfl : key = t.key? signer := by
      rw [hcall] at hcall'
      cases hcall'
      rfl
    exact Faithful.insert (ht.faithful t hknows) signer

theorem Tracks.fetched {between : σ} (ht : Tracks e within [] cache l) (hbetween : within between)
    (id : StatementId) (os : List Opinion) :
    Tracks e within (signersOn id os) cache
      ⟨between, l.log ++ [.opinions id (.answer os)]⟩ := by
  refine ⟨hbetween, ?_, ?_, ?_, ht.faithful⟩
  · rw [asked_snoc_opinions]
    exact ht.nodup
  · intro signer
    rw [asked_snoc_opinions, ht.asked_iff]
  · intro signer
    rw [fetched_snoc_opinions, ht.fetched_iff]
    simp

theorem Tracks.run_keyFor (h : e.Responds within) {signer : SignerId} {pending : List SignerId}
    (ht : Tracks e within (signer :: pending) cache l) :
    ∃ key cache' l', ExceptT.run (keyFor e.noted.keys cache signer) l = (.ok (key, cache'), l') ∧
      Tracks e within pending cache' l' := by
  unfold keyFor
  cases hk : cache[signer]? with
  | some key =>
    have hmem : signer ∈ cache := by
      rw [Std.TreeMap.mem_iff_isSome_getElem?, hk]
      rfl
    exact ⟨key, cache, l, rfl, ht.kept hmem⟩
  | none =>
    have hnew : signer ∉ cache := by
      rw [Std.TreeMap.mem_iff_isSome_getElem?, hk]
      exact Bool.false_ne_true
    obtain ⟨key, after, hafter, hcall⟩ := h.publicKeyFor signer l.world ht.world
    have hnoted : e.noted.keys.publicKeyFor signer l =
        (.answer key, ⟨after, l.log ++ [.key signer (.answer key)]⟩) := Call.noted_eq hcall l.log
    refine ⟨key, cache.insert signer key, _, ?_, ht.looked hnew hafter hcall⟩
    rw [Attempt.run_bind_eq, Routine.run_await_answer hnoted]
    rfl

theorem Tracks.run_gather (h : e.Responds within) (id : StatementId) (asOf : Instant)
    {os : List Opinion} (ht : Tracks e within (signersOn id os) cache l) (latest : Latest) :
    ∃ result l', ExceptT.run (gather e.noted.keys id asOf os cache latest) l = (.ok result, l') ∧
      Tracks e within [] result.2 l' := by
  induction os generalizing cache l latest with
  | nil => exact ⟨_, l, rfl, ht⟩
  | cons o os ih =>
    unfold gather
    by_cases hid : o.body.statementId = id
    · have hpending : signersOn id (o :: os) = o.body.signerId :: signersOn id os := by
        simp [signersOn, hid]
      rw [hpending] at ht
      obtain ⟨key, cache', l', hkey, ht'⟩ := ht.run_keyFor h
      simp only [hid, ne_eq, not_true_eq_false, if_false]
      rw [Attempt.run_bind_eq, hkey]
      cases key with
      | none => exact ih ht' latest
      | some key =>
        by_cases hv : (o.verifies key && decide (o.body.date ≤ asOf)) = true
        · simpa only [hv, if_true] using ih ht' (latest.offer o)
        · simpa only [hv, Bool.false_eq_true, if_false] using ih ht' latest
    · have hpending : signersOn id (o :: os) = signersOn id os := by simp [signersOn, hid]
      rw [hpending] at ht
      simpa only [ne_eq, hid, not_false_eq_true, if_true] using ih ht latest

theorem run_collect_faithful {key? : SignerId → Option PublicKey} (hknows : e.Knows key? within)
    {id : StatementId} {os : List Opinion} {world between : σ} (hbetween : within between)
    (hos : e.store.getOpinions id world = (.answer os, between)) (asOf : Instant)
    (hc : Faithful ⟨fun _ => os, key?⟩ cache) :
    ∃ cache' after, ExceptT.run (collect e.store e.keys cache id asOf) world =
      (.ok ((⟨fun _ => os, key?⟩ : Testimony).inEffect asOf id, cache'), after) := by
  -- Only the keys matter from here on, so the opinions may as well be listed for all statements.
  have hhears : (⟨{ e.store with getOpinions := fun _ w => (.answer os, w) }, e.keys, e.trust⟩ :
      Engine σ).Hears ⟨fun _ => os, key?⟩ within :=
    ⟨fun _ w hw => ⟨w, hw, rfl⟩, hknows⟩
  obtain ⟨cache', -, hgather⟩ := ends_gather hhears id asOf os hc ∅
  obtain ⟨after, -, hrun⟩ := hgather between hbetween
  refine ⟨cache', after, ?_⟩
  rw [collect, Attempt.run_bind_eq, Routine.run_await_answer hos]
  dsimp only
  rw [Attempt.run_bind_eq, hrun]
  rfl

/-- One call keeps track of the cache. Where keys do not change, it collects what a call with an
empty cache collects. -/
theorem Tracks.run_collect (h : e.Responds within) (ht : Tracks e within [] cache l)
    (id : StatementId) (asOf : Instant) :
    ∃ opinions cache' l',
      ExceptT.run (collect e.noted.store e.noted.keys cache id asOf) l =
        (.ok (opinions, cache'), l') ∧
      ExceptT.run (collect e.store e.keys cache id asOf) l.world =
        (.ok (opinions, cache'), l'.world) ∧
      Tracks e within [] cache' l' ∧
      ∀ key?, e.Knows key? within →
        (ExceptT.run (collect e.store e.keys ∅ id asOf) l.world).1.map Prod.fst = .ok opinions := by
  obtain ⟨os, between, hbetween, hos⟩ := h.getOpinions id l.world ht.world
  have hnoted : e.noted.store.getOpinions id l =
      (.answer os, ⟨between, l.log ++ [.opinions id (.answer os)]⟩) := Call.noted_eq hos l.log
  obtain ⟨⟨latest, cache'⟩, l', hgather, ht'⟩ :=
    (ht.fetched hbetween id os).run_gather h id asOf ∅
  have hrun : ExceptT.run (collect e.noted.store e.noted.keys cache id asOf) l =
      (.ok (latest.values.filter (·.body.valid), cache'), l') := by
    rw [collect, Attempt.run_bind_eq, Routine.run_await_answer hnoted]
    dsimp only
    rw [Attempt.run_bind_eq, hgather]
    rfl
  obtain ⟨hresult, hafter⟩ :=
    (e.noted_mirrors.composes Alike.checkpoint_unset).collect cache id asOf l l.world rfl
  rw [hrun] at hresult hafter
  have hplain : ExceptT.run (collect e.store e.keys cache id asOf) l.world =
      (.ok (latest.values.filter (·.body.valid), cache'), l'.world) :=
    Prod.ext hresult.symm hafter.symm
  refine ⟨_, cache', l', hrun, hplain, ht', ?_⟩
  intro key? hknows
  obtain ⟨_, _, hkept⟩ :=
    run_collect_faithful hknows hbetween hos asOf (ht.faithful ⟨fun _ => os, key?⟩ hknows)
  obtain ⟨_, _, hfresh⟩ := run_collect_faithful hknows hbetween hos asOf faithful_empty
  have hsame := Except.ok.inj (Prod.mk.inj (hplain.symm.trans hkept)).1
  rw [hfresh]
  exact congrArg Except.ok (congrArg Prod.fst hsame).symm

theorem run_collectEach_cons {store : RecordStore σ} {keys : KeyStore σ} {id : StatementId}
    {asOf : Instant} {calls : List (StatementId × Instant)} {cache' : KeyCache}
    {opinions : List Opinion} {entries : List (σ × List Opinion)} {world between after : σ}
    (hcollect : ExceptT.run (collect store keys cache id asOf) world =
      (.ok (opinions, cache'), between))
    (hrest : ExceptT.run (collectEach store keys calls cache') between = (.ok entries, after)) :
    ExceptT.run (collectEach store keys ((id, asOf) :: calls) cache) world =
      (.ok ((world, opinions) :: entries), after) := by
  have hget : ExceptT.run (get : Attempt σ σ) world = (.ok world, world) := rfl
  rw [collectEach, Attempt.run_bind_eq, hget]
  dsimp only
  rw [Attempt.run_bind_eq, hcollect]
  dsimp only
  rw [Attempt.run_bind_eq, hrest]
  rfl

theorem Tracks.run_collectEach (h : e.Responds within) (calls : List (StatementId × Instant))
    (ht : Tracks e within [] cache l) :
    ∃ noted entries cache' l',
      ExceptT.run (collectEach e.noted.store e.noted.keys calls cache) l = (.ok noted, l') ∧
      ExceptT.run (collectEach e.store e.keys calls cache) l.world = (.ok entries, l'.world) ∧
      Tracks e within [] cache' l' ∧
      ∀ key?, e.Knows key? within → List.Forall₂ (fun call entry =>
        (ExceptT.run (collect e.store e.keys ∅ call.1 call.2) entry.1).1.map Prod.fst =
          .ok entry.2) calls entries := by
  induction calls generalizing cache l with
  | nil => exact ⟨[], [], cache, l, rfl, rfl, ht, fun _ _ => .nil⟩
  | cons call calls ih =>
    obtain ⟨id, asOf⟩ := call
    obtain ⟨opinions, cache₁, l₁, hnoted, hplain, ht₁, hfresh⟩ := ht.run_collect h id asOf
    obtain ⟨noted, entries, cache₂, l₂, hnoteds, hplains, ht₂, hrest⟩ := ih ht₁
    refine ⟨(l, opinions) :: noted, (l.world, opinions) :: entries, cache₂, l₂, ?_, ?_, ht₂, ?_⟩
    · exact run_collectEach_cons hnoted hnoteds
    · exact run_collectEach_cons hplain hplains
    · exact fun key? hknows => .cons (hfresh key? hknows) (hrest key? hknows)

/-- One collector, called any number of times, asks for the key of each signer of an opinion that was
fetched and is filed rightly, once, and for no other. As long as the key store does not change its
answers, each call collects what a new collector would in its place. -/
theorem cache_invisible (h : e.Responds within) {world : σ} (hw : within world)
    (calls : List (StatementId × Instant)) :
    ∃ entries after log,
      ExceptT.run (collectEach e.store e.keys calls ∅) world = (.ok entries, after) ∧
      (ExceptT.run (collectEach e.noted.store e.noted.keys calls ∅) ⟨world, []⟩).2 =
        ⟨after, log⟩ ∧
      (∀ key?, e.Knows key? within → List.Forall₂ (fun call entry =>
        (ExceptT.run (collect e.store e.keys ∅ call.1 call.2) entry.1).1.map Prod.fst =
          .ok entry.2) calls entries) ∧
      (asked log).Nodup ∧ ∀ signer, signer ∈ asked log ↔ Fetched log signer := by
  obtain ⟨noted, entries, cache, l, hnoted, hplain, ht, hfresh⟩ :=
    (tracks_empty hw).run_collectEach h calls
  refine ⟨entries, l.world, l.log, hplain, by rw [hnoted], hfresh, ht.nodup, ?_⟩
  intro signer
  rw [ht.asked_iff, ht.fetched_iff]
  simp

open Store (Memory Rehearsal)

/-- The first opinion is signed by someone without a key. The second one is on another statement. -/
def strangerMemory : Memory where
  opinions := [⟨⟨1⟩, { specimenBody with signerId := ⟨9⟩ }, []⟩]
  misfiled := [(⟨2⟩, ⟨⟨2⟩, { specimenBody with statementId := ⟨3⟩ }, []⟩)]

/-- That there is no key for the stranger is kept as well, and nobody else is asked about. -/
theorem cache_invisible_stranger :
    let e : Engine Rehearsal := ⟨Rehearsal.records, Rehearsal.keys, fun _ => 1⟩
    let calls : List (StatementId × Instant) := [(⟨2⟩, .epoch), (⟨3⟩, .epoch), (⟨2⟩, .epoch)]
    ∃ entries after log,
      ExceptT.run (collectEach e.store e.keys calls ∅) { memory := strangerMemory } =
        (.ok entries, after) ∧
      (ExceptT.run (collectEach e.noted.store e.noted.keys calls ∅)
        ⟨{ memory := strangerMemory }, []⟩).2 = ⟨after, log⟩ ∧
      List.Forall₂ (fun call entry =>
        (ExceptT.run (collect e.store e.keys ∅ call.1 call.2) entry.1).1.map Prod.fst =
          .ok entry.2) calls entries ∧
      asked log = [⟨9⟩] := by
  intro e calls
  have hhears := Rehearsal.hears (fun _ => 1) strangerMemory
  have hworld : Rehearsal.Undisturbed strangerMemory { memory := strangerMemory } := ⟨rfl, rfl⟩
  obtain ⟨entries, after, log, hplain, hnoted, hfresh, -, -⟩ :=
    cache_invisible hhears.responds hworld calls
  have hasked : asked (ExceptT.run (collectEach e.noted.store e.noted.keys calls ∅)
      ⟨{ memory := strangerMemory }, []⟩).2.log = [⟨9⟩] := by decide +kernel
  rw [hnoted] at hasked
  exact ⟨entries, after, log, hplain, hnoted, hfresh _ hhears.publicKeyFor, hasked⟩

end Collection
end Reputation
