import Reputation.Proofs.Opinion.Payload
import Reputation.Proofs.Resolution.Verdicts
/-!
Convergence of nodes. Nodes that hold the same records, opinions and keys give the same verdicts,
in whatever order they list what they hold and however their indices came about.
-/
namespace Reputation

namespace Testimony

variable {t u : Testimony} {asOf : Instant} {id : StatementId} {signer : SignerId} {o p : Opinion}

/-- The same opinions on each statement in any order, and the same keys. -/
structure Matches (t u : Testimony) : Prop where
  opinions : ∀ id, ((t.opinions id).map Opinion.signed).Perm ((u.opinions id).map Opinion.signed)
  keys : ∀ signer, t.key? signer = u.key? signer

/-- No signature among the opinions verifies under one key for two different payloads. -/
def Binding (t : Testimony) : Prop :=
  ∀ id, ∀ o ∈ t.opinions id, ∀ p ∈ t.opinions id, ∀ signer key, t.key? signer = some key →
    o.signature = p.signature → o.verifies key → p.verifies key →
      o.body.payload = p.body.payload

theorem Matches.symm (h : Matches t u) : Matches u t :=
  ⟨fun id => (h.opinions id).symm, fun signer => (h.keys signer).symm⟩

theorem Matches.exists_twin (h : Matches t u) (ho : o ∈ t.opinions id) :
    ∃ o' ∈ u.opinions id, o'.signed = o.signed :=
  List.mem_map.mp ((h.opinions id).mem_iff.mp (List.mem_map_of_mem ho))

theorem Counts.transfer (h : Matches t u) (hc : t.Counts asOf id signer o)
    (htwin : p.signed = o.signed) : u.Counts asOf id signer p := by
  obtain ⟨hbody, hsignature⟩ := SignedOpinion.mk.inj htwin
  obtain ⟨key, hkey, hverifies⟩ := hc.verifies
  refine ⟨hbody ▸ hc.filed, hbody ▸ hc.signer_eq, ⟨key, h.keys signer ▸ hkey, ?_⟩, hbody ▸ hc.dated⟩
  rw [← hverifies, Opinion.verifies, Opinion.verifies, hbody, hsignature]

theorem Decides.mem (h : t.Decides asOf id signer o) : o ∈ t.opinions id := by
  obtain ⟨-, front, back, hsplit, -⟩ := h
  simp [hsplit]

theorem Decides.outranks (h : t.Decides asOf id signer o) (hp : p ∈ t.opinions id)
    (hcounts : t.Counts asOf id signer p) : p.body.serial < o.body.serial ∨
      (p.body.serial = o.body.serial ∧ o.signature ≤ p.signature) := by
  obtain ⟨-, front, back, hsplit, hf, hb⟩ := h
  rw [hsplit] at hp
  rcases List.mem_append.mp hp with hp | hp
  · exact (hf p hp hcounts).imp_right fun hsig => ⟨hsig.1, List.le_of_lt hsig.2⟩
  · rcases List.mem_cons.mp hp with rfl | hp
    · exact Or.inr ⟨rfl, List.le_refl _⟩
    · exact hb p hp hcounts

theorem exists_decides (ho : o ∈ t.opinions id) (hc : t.Counts asOf id signer o) :
    ∃ p, t.Decides asOf id signer p := by
  have hspec := Latest.ofList_spec ((t.opinions id).filter (t.counts asOf id)) signer
  cases hl : (Latest.ofList ((t.opinions id).filter (t.counts asOf id)))[signer]? with
  | none =>
    simp only [hl] at hspec
    have hcounts := counts_iff.mpr hc
    exact absurd hcounts.2 (hspec o (List.mem_filter.mpr ⟨ho, hcounts.1⟩))
  | some p => exact ⟨p, getElem?_latest.mp hl⟩

theorem Matches.exists_decides (h : Matches t u) (ho : t.Decides asOf id signer o) :
    ∃ p, u.Decides asOf id signer p := by
  obtain ⟨o', ho', htwin⟩ := h.exists_twin ho.mem
  exact Testimony.exists_decides ho' (ho.1.transfer h htwin)

theorem Matches.signature_eq (h : Matches t u) (ho : t.Decides asOf id signer o)
    (hp : u.Decides asOf id signer p) : o.signature = p.signature := by
  obtain ⟨o', ho', hotwin⟩ := h.exists_twin ho.mem
  obtain ⟨p', hp', hptwin⟩ := h.symm.exists_twin hp.mem
  have hup := hp.outranks ho' (ho.1.transfer h hotwin)
  have hdown := ho.outranks hp' (hp.1.transfer h.symm hptwin)
  obtain ⟨hobody, hosig⟩ := SignedOpinion.mk.inj hotwin
  obtain ⟨hpbody, hpsig⟩ := SignedOpinion.mk.inj hptwin
  rw [hobody, hosig] at hup
  rw [hpbody, hpsig] at hdown
  rcases hup with hlt | ⟨heq, hple⟩
  · rcases hdown with hlt' | ⟨heq', -⟩
    · exact absurd hlt' (UInt32.lt_asymm hlt)
    · exact absurd heq'.symm (UInt32.ne_of_lt hlt)
  · rcases hdown with hlt' | ⟨-, hole⟩
    · exact absurd heq.symm (UInt32.ne_of_lt hlt')
    · exact List.le_antisymm hole hple

/-- The same signature, by the assumption on signatures, is on the same fields. -/
theorem Matches.fields_eq (h : Matches t u) (hbinding : t.Binding)
    (ho : t.Decides asOf id signer o) (hp : u.Decides asOf id signer p) :
    o.body.valid = p.body.valid ∧ o.body.certainty = p.body.certainty := by
  obtain ⟨p', hp', hptwin⟩ := h.symm.exists_twin hp.mem
  obtain ⟨key, hkey, hverifies⟩ := ho.1.verifies
  obtain ⟨key', hkey', hverifies'⟩ := (hp.1.transfer h.symm hptwin).verifies
  obtain rfl : key = key' := Option.some.inj (hkey.symm.trans hkey')
  obtain ⟨hbody, hsignature⟩ := SignedOpinion.mk.inj hptwin
  have hsame : o.signature = p'.signature := (h.signature_eq ho hp).trans hsignature.symm
  have hpayload :=
    hbinding id o ho.mem p' hp' signer key hkey hsame hverifies hverifies'
  obtain ⟨-, -, -, hvalid, -, hcertainty, -⟩ := OpinionBody.fields_of_payload_eq hpayload
  exact ⟨hbody ▸ hvalid, hbody ▸ hcertainty⟩

theorem Matches.contributes_iff (h : Matches t u) (hbinding : t.Binding)
    {trust trust' : SignerId → Float} (htrust : ∀ signer, trust signer = trust' signer)
    {k : Contribution} : t.Contributes trust asOf k ↔ u.Contributes trust' asOf k := by
  unfold Contributes
  rw [htrust]
  refine and_congr_left fun _ => ?_
  constructor
  · rintro ⟨o, ho, hvalid, hcertainty⟩
    obtain ⟨p, hp⟩ := h.exists_decides ho
    obtain ⟨hv, hcert⟩ := h.fields_eq hbinding ho hp
    exact ⟨p, hp, hv ▸ hvalid, hcert ▸ hcertainty⟩
  · rintro ⟨p, hp, hvalid, hcertainty⟩
    obtain ⟨o, ho⟩ := h.symm.exists_decides hp
    obtain ⟨hv, hcert⟩ := h.fields_eq hbinding ho hp
    exact ⟨o, ho, hv ▸ hvalid, hcert ▸ hcertainty⟩

end Testimony

structure Content.Matches (c d : Content) : Prop
    extends Testimony.Matches c.toTestimony d.toTestimony where
  records : c.records.Perm d.records

theorem Content.Matches.statement?_eq {c d : Content} (h : c.Matches d) (id : StatementId) :
    c.statement? id = d.statement? id := by
  ext s
  simp only [statement?_eq_some, h.records.mem_iff]

namespace Node

/-- Two nodes that hold the same give the same verdict on everything, bit for bit. -/
theorem resolve_converges {σ τ : Type} {m : Node σ} {n : Node τ} {c d : Content}
    {within : σ → Prop} {within' : τ → Prop} {held held' : Held}
    (hm : m.service.engine.Reads c within) (hwm : within m.world)
    (hn : n.service.engine.Reads d within') (hwn : within' n.world)
    (hsame : c.Matches d) (hbinding : c.Binding)
    (htrust : ∀ signer, m.service.engine.trust signer = n.service.engine.trust signer)
    (htracks : m.index.Tracks held) (htracks' : n.index.Tracks held')
    (hheld : ∀ id : StatementId, held[id]? = held'[id]?) (q : Descriptor) (asOf : Instant) :
    ∃ v, (m.resolve q asOf).1 = .ok v ∧ (n.resolve q asOf).1 = .ok v := by
  obtain ⟨ks, hends, hsorted, hmem⟩ := Engine.ends_resolve hm htracks.agrees q asOf
  obtain ⟨ks', hends', hsorted', hmem'⟩ := Engine.ends_resolve hn htracks'.agrees q asOf
  have hks : ks = ks' := by
    refine Contribution.eq_of_pairwise_precedes hsorted hsorted' ?_
    intro k
    rw [hmem, hmem', hheld, hsame.statement?_eq,
      hsame.toMatches.contributes_iff hbinding htrust]
  refine ⟨.weighing q.label asOf ks, resolve_ends hends hwm, ?_⟩
  rw [hks]
  exact resolve_ends hends' hwn

open Store (Memory Rehearsal)

theorem mem_getOpinions_specimenMemory {os : List Opinion} {id : StatementId} {o : Opinion}
    (h : o ∈ (specimenMemory os).testimony.opinions id) : o ∈ os := by
  rcases List.mem_append.mp h with h | h
  · exact (List.mem_filter.mp h).1
  · simp [specimenMemory] at h

theorem specimenMemory_matches {os ps : List Opinion} (h : os.Perm ps) :
    ((specimenMemory os).content (specimenMemory_keyed os)).Matches
      ((specimenMemory ps).content (specimenMemory_keyed ps)) where
  opinions _ := ((h.filter _).append (List.Perm.refl _)).map _
  keys _ := rfl
  records := List.Perm.refl _

/-- The forgery verifies under no key that is known, so no signature is on two payloads. -/
theorem specimenMemory_binding :
    ((specimenMemory [forgery, specimen]).content (specimenMemory_keyed _)).Binding := by
  have hforged : ∀ (signer : SignerId) (key : PublicKey),
      (specimenMemory [forgery, specimen]).testimony.key? signer = some key →
        ¬ forgery.verifies key := by
    intro signer key hkey hverifies
    have hknown : key = specimenKey.publicKey := by
      simp only [Memory.testimony, specimenMemory, Std.TreeMap.getElem?_insert] at hkey
      split at hkey
      · exact (Option.some.inj hkey).symm
      · simp at hkey
    rw [hknown, forgery_not_verifies] at hverifies
    cases hverifies
  intro id o ho p hp signer key hkey _ hverifies hverifies'
  have ho := mem_getOpinions_specimenMemory ho
  have hp := mem_getOpinions_specimenMemory hp
  simp only [List.mem_cons, List.not_mem_nil, or_false] at ho hp
  rcases ho with rfl | rfl
  · exact absurd hverifies (hforged signer key hkey)
  · rcases hp with rfl | rfl
    · exact absurd hverifies' (hforged signer key hkey)
    · rfl

/-- The other node lists the opinions the other way round, and its index held something else. -/
theorem resolve_converges_network :
    let other : Statement := ⟨⟨2⟩, "spammer", "example.com", none, none⟩
    let ix := Index.ofStatements [specimenStatement]
    let ix' := ((Index.empty.insert other).remove ⟨2⟩).1.insert specimenStatement
    ∃ v, ((specimenNode [forgery, specimen] ix).resolve
        (.address (.v4 ⟨0xc0000205, by decide⟩)) .epoch).1 = .ok v ∧
      ((specimenNode [specimen, forgery] ix').resolve
        (.address (.v4 ⟨0xc0000205, by decide⟩)) .epoch).1 = .ok v := by
  intro other ix ix'
  have htracks : ix.Tracks (Held.ofStatements [specimenStatement]) := .ofStatements (by decide)
  have htracks' : ix'.Tracks ((((∅ : Held).insert ⟨2⟩ other).erase ⟨2⟩).insert
      specimenStatement.id specimenStatement) := .insert _ (.remove _ (.insert other .empty))
  refine resolve_converges (m := specimenNode [forgery, specimen] ix)
    (n := specimenNode [specimen, forgery] ix')
    (Rehearsal.reads (fun _ => 1) (specimenMemory_keyed [forgery, specimen]))
    (specimenNode_undisturbed _ _)
    (Rehearsal.reads (fun _ => 1) (specimenMemory_keyed [specimen, forgery]))
    (specimenNode_undisturbed _ _) (specimenMemory_matches (List.Perm.swap _ _ _))
    specimenMemory_binding (fun _ => rfl) htracks htracks' ?_ _ _
  intro id
  rw [Held.getElem?_insert, Held.getElem?_erase, Held.ofStatements, List.foldl_cons, List.foldl_nil,
    Held.getElem?_insert]
  by_cases hid : specimenStatement.id = id
  · simp [hid]
  · have hother : (⟨2⟩ : StatementId) ≠ id := hid
    simp [hid, hother]

end Node
end Reputation
