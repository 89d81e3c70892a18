import Reputation.Proofs.Resolution.Convergence
import Mathlib.Data.List.Forall2
/-!
Opinions that state the same. A signature covers the payload of an opinion, which leaves out the
fraction of a second in its date and does not tell a missing comment from an empty one. A verdict
leaves them out as well, unless it is asked for at an instant within the very second of the date.
-/
namespace Reputation

/-- The same signature on the same payload. Within the second that the payload dates it to, the
other opinion is dated after an instant if and only if the one is. -/
structure Opinion.Restates (asOf : Instant) (o p : Opinion) : Prop where
  signature : p.signature = o.signature
  payload : p.body.payload = o.body.payload
  dated : o.body.date.seconds = asOf.seconds → (o.body.date ≤ asOf ↔ p.body.date ≤ asOf)

namespace Opinion.Restates

variable {asOf : Instant} {o p : Opinion}

theorem refl (asOf : Instant) (o : Opinion) : Restates asOf o o :=
  ⟨rfl, rfl, fun _ => Iff.rfl⟩

theorem seconds_eq (h : Restates asOf o p) : p.body.date.seconds = o.body.date.seconds := by
  obtain ⟨-, -, hdate, -⟩ := OpinionBody.fields_of_payload_eq h.payload
  exact hdate

theorem symm (h : Restates asOf o p) : Restates asOf p o where
  signature := h.signature.symm
  payload := h.payload.symm
  dated hsecond := (h.dated (h.seconds_eq.symm.trans hsecond)).symm

theorem date_le_iff (h : Restates asOf o p) : o.body.date ≤ asOf ↔ p.body.date ≤ asOf := by
  by_cases hsecond : o.body.date.seconds = asOf.seconds
  · exact h.dated hsecond
  · have hseconds := h.seconds_eq
    change Instant.le _ _ ↔ Instant.le _ _
    unfold Instant.le
    omega

theorem verifies (h : Restates asOf o p) (key : PublicKey) : p.verifies key = o.verifies key := by
  rw [Opinion.verifies, Opinion.verifies, h.payload, h.signature]

end Opinion.Restates

namespace Testimony

variable {t u : Testimony} {asOf : Instant} {id : StatementId} {signer : SignerId} {o p : Opinion}

/-- The same keys, and the same opinions at the same places, any of them restated. -/
structure Restated (t u : Testimony) (asOf : Instant) : Prop where
  opinions : ∀ id, List.Forall₂ (Opinion.Restates asOf) (t.opinions id) (u.opinions id)
  keys : ∀ signer, t.key? signer = u.key? signer

theorem Restated.symm (h : t.Restated u asOf) : u.Restated t asOf where
  opinions id := ((h.opinions id).imp fun _ _ hop => hop.symm).flip
  keys signer := (h.keys signer).symm

theorem exists_of_forall₂ {α β : Type} {R : α → β → Prop} {xs : List α} {ys : List β}
    (h : List.Forall₂ R xs ys) {x : α} (hx : x ∈ xs) : ∃ y ∈ ys, R x y := by
  induction h with
  | nil => cases hx
  | cons hxy _ ih =>
    rcases List.mem_cons.mp hx with rfl | hx
    · exact ⟨_, List.mem_cons_self, hxy⟩
    · obtain ⟨y, hy, hR⟩ := ih hx
      exact ⟨y, List.mem_cons_of_mem _ hy, hR⟩

theorem Counts.restated (h : t.Restated u asOf) (hop : Opinion.Restates asOf o p)
    (hc : t.Counts asOf id signer o) : u.Counts asOf id signer p := by
  obtain ⟨hstatement, hsigner, -⟩ := OpinionBody.fields_of_payload_eq hop.payload
  obtain ⟨key, hkey, hverifies⟩ := hc.verifies
  refine ⟨hstatement.trans hc.filed, hsigner.trans hc.signer_eq, ⟨key, ?_, ?_⟩, ?_⟩
  · rwa [← h.keys]
  · rwa [hop.verifies]
  · exact hop.date_le_iff.mp hc.dated

theorem Decides.restated (h : t.Restated u asOf) (hd : t.Decides asOf id signer o) :
    ∃ p, Opinion.Restates asOf o p ∧ u.Decides asOf id signer p := by
  obtain ⟨hcounts, front, back, hsplit, hfront, hback⟩ := hd
  have hall := (h.symm.opinions id)
  rw [hsplit] at hall
  have hfronts := List.forall₂_take_append _ _ _ hall
  obtain ⟨p, back', hop, hbacks, hdrop⟩ :=
    List.forall₂_cons_right_iff.mp (List.forall₂_drop_append _ _ _ hall)
  have hsplit' := (List.take_append_drop front.length (u.opinions id)).symm
  rw [hdrop] at hsplit'
  have hop := hop.symm
  obtain ⟨-, -, -, -, hserial, -⟩ := OpinionBody.fields_of_payload_eq hop.payload
  refine ⟨p, hop, hcounts.restated h hop, _, back', hsplit', ?_, ?_⟩
  · intro q hq hqcounts
    obtain ⟨q', hq', hqq'⟩ := exists_of_forall₂ hfronts hq
    obtain ⟨-, -, -, -, hqserial, -⟩ := OpinionBody.fields_of_payload_eq hqq'.payload
    have hlower := hfront q' hq' (hqcounts.restated h.symm hqq')
    rwa [hqserial, ← hserial, hqq'.signature, ← hop.signature] at hlower
  · intro q hq hqcounts
    obtain ⟨q', hq', hqq'⟩ := exists_of_forall₂ hbacks hq
    obtain ⟨-, -, -, -, hqserial, -⟩ := OpinionBody.fields_of_payload_eq hqq'.payload
    have hlower := hback q' hq' (hqcounts.restated h.symm hqq')
    rwa [hqserial, ← hserial, hqq'.signature, ← hop.signature] at hlower

theorem Contributes.restated (h : t.Restated u asOf) {trust : SignerId → Float} {k : Contribution}
    (hk : t.Contributes trust asOf k) : u.Contributes trust asOf k := by
  obtain ⟨⟨o, hdecides, hvalid, hcertainty⟩, hweight⟩ := hk
  obtain ⟨p, hop, hdecides'⟩ := hdecides.restated h
  obtain ⟨-, -, -, hvalid', -, hcertainty', -⟩ := OpinionBody.fields_of_payload_eq hop.payload
  exact ⟨⟨p, hdecides', hvalid'.trans hvalid, hcertainty'.trans hcertainty⟩, hweight⟩

end Testimony

namespace Content

structure Restated (c d : Content) (asOf : Instant) : Prop
    extends Testimony.Restated c.toTestimony d.toTestimony asOf where
  records : c.records = d.records

theorem aggregate_collected_eq {c d : Content} {trust : SignerId → Float} {asOf : Instant}
    (hrecords : c.records = d.records)
    (h : ∀ k, c.Contributes trust asOf k ↔ d.Contributes trust asOf k) (label : String)
    {ids : List StatementId} (hids : ids.Nodup) :
    aggregate label asOf (c.collected asOf ids) trust =
      aggregate label asOf (d.collected asOf ids) trust := by
  have hstatement : ∀ id, c.statement? id = d.statement? id := by
    intro id
    rw [statement?, statement?, record?, record?, hrecords]
  rw [aggregate_eq, aggregate_eq]
  refine congrArg _ (Contribution.eq_of_pairwise_precedes ?_ ?_ ?_)
  · exact Contribution.pairwise_precedes_mergeSort (pairwise_contributions_collected hids)
  · exact Contribution.pairwise_precedes_mergeSort (pairwise_contributions_collected hids)
  · intro k
    rw [List.mem_mergeSort, List.mem_mergeSort, mem_contributions_collected,
      mem_contributions_collected, hstatement, h]

end Content

namespace Node

/-- Two nodes of which one has opinions restated give the same verdict, bit for bit. -/
theorem restated_opinions_resolve_alike {σ τ : Type} {m : Node σ} {n : Node τ} {c d : Content}
    {within : σ → Prop} {within' : τ → Prop} {asOf : Instant}
    (hm : m.service.engine.Reads c within) (hwm : within m.world)
    (hn : n.service.engine.Reads d within') (hwn : within' n.world) (hrestated : c.Restated d asOf)
    (htrust : n.service.engine.trust = m.service.engine.trust) (hindex : n.index = m.index)
    (q : Descriptor) :
    ∃ v, (m.resolve q asOf).1 = .ok v ∧ (n.resolve q asOf).1 = .ok v := by
  have hends := Engine.ends_resolve_collected hm m.index q asOf
  have hends' := Engine.ends_resolve_collected hn n.index q asOf
  have hsame : ∀ k, c.Contributes m.service.engine.trust asOf k ↔
      d.Contributes m.service.engine.trust asOf k := fun k =>
    ⟨fun hk => hk.restated hrestated.toRestated, fun hk => hk.restated hrestated.toRestated.symm⟩
  refine ⟨_, run_result hends hwm, ?_⟩
  rw [resolve, run_result hends' hwn, htrust, hindex, Content.aggregate_collected_eq
    hrestated.records hsame q.label (Engine.toList_nodup (Engine.candidates m.index q))]

def specimenInstant (seconds : Int) (nanos : Nat) : Instant :=
  (Instant.ofParts? seconds nanos).getD .epoch

/-- Kept under another number, a nanosecond later and with an empty comment. -/
def reworded : Opinion :=
  { specimen with
    id := ⟨7⟩
    body := { specimenBody with date := specimenInstant 0 1, comment := some "" } }

theorem restates_reworded : Opinion.Restates (specimenInstant 1 0) specimen reworded where
  signature := rfl
  payload := rfl
  dated h := absurd h (by decide)

theorem specimenMemory_restated :
    ((specimenMemory [forgery, specimen]).content (specimenMemory_keyed _)).Restated
      ((specimenMemory [forgery, reworded]).content (specimenMemory_keyed _))
      (specimenInstant 1 0) where
  keys _ := rfl
  records := rfl
  opinions id := by
    change List.Forall₂ _ ((specimenMemory _).getOpinions id) ((specimenMemory _).getOpinions id)
    unfold Store.Memory.getOpinions
    refine List.rel_append (List.rel_filter ?_ ?_) ?_
    · intro o p hop
      obtain ⟨hid, -⟩ := OpinionBody.fields_of_payload_eq hop.payload
      simp [hid]
    · exact .cons (.refl _ _) (.cons restates_reworded .nil)
    · exact .nil

theorem restated_opinions_resolve_alike_reworded :
    let ix := Index.ofStatements [specimenStatement]
    let q : Descriptor := .address (.v4 ⟨0xc0000205, by decide⟩)
    reworded.body ≠ specimen.body ∧
      ∃ v, ((specimenNode [forgery, specimen] ix).resolve q (specimenInstant 1 0)).1 = .ok v ∧
        ((specimenNode [forgery, reworded] ix).resolve q (specimenInstant 1 0)).1 = .ok v := by
  intro ix q
  refine ⟨by decide, ?_⟩
  exact restated_opinions_resolve_alike (m := specimenNode [forgery, specimen] ix)
    (n := specimenNode [forgery, reworded] ix)
    (Store.Rehearsal.reads (fun _ => 1) (specimenMemory_keyed _)) (specimenNode_undisturbed _ _)
    (Store.Rehearsal.reads (fun _ => 1) (specimenMemory_keyed _)) (specimenNode_undisturbed _ _)
    specimenMemory_restated rfl rfl q

/-- Dated half a second later. The date is in the same second, so the signature still fits. -/
def delayed : Opinion :=
  { specimen with body := { specimenBody with date := specimenInstant 0 500000000 } }

/-- Within that second the fraction, which nobody signed, tells whether the opinion counts. -/
theorem unsigned_fraction_changes_verdict :
    let ix := Index.ofStatements [specimenStatement]
    let q : Descriptor := .address (.v4 ⟨0xc0000205, by decide⟩)
    let asOf := specimenInstant 0 250000000
    delayed.signature = specimen.signature ∧ delayed.body.payload = specimen.body.payload ∧
      ∃ v w, ((specimenNode [specimen] ix).resolve q asOf).1 = .ok v ∧
        ((specimenNode [delayed] ix).resolve q asOf).1 = .ok w ∧ v ≠ w := by
  intro ix q asOf
  have hix : ix.Agrees (.ofStatements [specimenStatement]) :=
    Index.agrees_ofStatements (by decide)
  obtain ⟨ks, hends, -, hmem⟩ := Engine.ends_resolve
    (Store.Rehearsal.reads (fun _ => 1) (specimenMemory_keyed [specimen])) hix q asOf
  obtain ⟨ls, hends', -, hmem'⟩ := Engine.ends_resolve
    (Store.Rehearsal.reads (fun _ => 1) (specimenMemory_keyed [delayed])) hix q asOf
  refine ⟨rfl, rfl, _, _, run_result hends (specimenNode_undisturbed _ ix),
    run_result hends' (specimenNode_undisturbed _ ix), ?_⟩
  intro heq
  have hsame := congrArg Verdict.contributing heq
  rw [Verdict.weighing_contributing, Verdict.weighing_contributing] at hsame
  have hcounts : (specimenMemory [specimen]).testimony.Counts asOf ⟨2⟩ ⟨1⟩ specimen :=
    ⟨rfl, rfl, ⟨specimenKey.publicKey, by simp [Store.Memory.testimony, specimenMemory],
      specimen_verifies⟩, by decide⟩
  have hk : ⟨⟨2⟩, ⟨1⟩, 3, usableWeight 1⟩ ∈ ks := by
    refine (hmem _).mpr ⟨⟨specimenStatement, by decide, ?_⟩, ?_, ?_, rfl⟩
    · exact ⟨_, rfl, by decide⟩
    · rw [Content.statement?, Store.Memory.record?_eq]
      decide
    · exact ⟨specimen, ⟨hcounts, [], [], rfl, by simp, by simp⟩, rfl, rfl⟩
  rw [hsame] at hk
  obtain ⟨-, -, ⟨o, hdecides, -⟩, -⟩ := (hmem' _).mp hk
  obtain rfl := List.mem_singleton.mp (mem_getOpinions_specimenMemory hdecides.mem)
  exact absurd hdecides.1.dated (by decide)

end Node
end Reputation
