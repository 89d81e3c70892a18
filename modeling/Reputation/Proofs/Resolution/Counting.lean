import Reputation.Proofs.Resolution.Precedence
/-!
Which opinions have a say on a statement, and which of them decides for its signer. Collection ends
with the deciding opinions that are valid, however keys were looked up on the way.
-/
namespace Reputation

variable {σ : Type}

namespace Testimony

/-- Filed rightly, signed with the known key of its signer, and not dated after the instant. -/
structure Counts (t : Testimony) (asOf : Instant) (id : StatementId) (signer : SignerId)
    (o : Opinion) : Prop where
  filed : o.body.statementId = id
  signer_eq : o.body.signerId = signer
  verifies : ∃ key, t.key? signer = some key ∧ o.verifies key = true
  dated : o.body.date ≤ asOf

/-- The greatest serial decides, then the smallest signature, then the first place in the list. -/
def Decides (t : Testimony) (asOf : Instant) (id : StatementId) (signer : SignerId) (o : Opinion) :
    Prop :=
  t.Counts asOf id signer o ∧ ∃ front back, t.opinions id = front ++ o :: back ∧
    (∀ p ∈ front, t.Counts asOf id signer p → p.body.serial < o.body.serial ∨
      (p.body.serial = o.body.serial ∧ o.signature < p.signature)) ∧
    ∀ p ∈ back, t.Counts asOf id signer p → p.body.serial < o.body.serial ∨
      (p.body.serial = o.body.serial ∧ o.signature ≤ p.signature)

def counts (t : Testimony) (asOf : Instant) (id : StatementId) (o : Opinion) : Bool :=
  o.body.statementId = id && (t.key? o.body.signerId).any o.verifies && o.body.date ≤ asOf

theorem counts_iff {t : Testimony} {asOf : Instant} {id : StatementId} {signer : SignerId}
    {o : Opinion} :
    t.counts asOf id o ∧ o.body.signerId = signer ↔ t.Counts asOf id signer o := by
  simp only [counts, Bool.and_eq_true, decide_eq_true_eq, Option.any_eq_true]
  constructor
  · rintro ⟨⟨⟨hid, hkey⟩, hdate⟩, rfl⟩
    exact ⟨hid, rfl, hkey, hdate⟩
  · rintro ⟨hid, rfl, hkey, hdate⟩
    exact ⟨⟨⟨hid, hkey⟩, hdate⟩, rfl⟩

def latest (t : Testimony) (asOf : Instant) (id : StatementId) : Latest :=
  .ofList ((t.opinions id).filter (t.counts asOf id))

def inEffect (t : Testimony) (asOf : Instant) (id : StatementId) : List Opinion :=
  (t.latest asOf id).values.filter (·.body.valid)

/-- Opinions on other statements make no difference. -/
theorem inEffect_congr {t u : Testimony} {id : StatementId}
    (hopinions : u.opinions id = t.opinions id) (hkeys : u.key? = t.key?) (asOf : Instant) :
    u.inEffect asOf id = t.inEffect asOf id := by
  have hcounts : u.counts asOf id = t.counts asOf id := by
    funext o
    rw [counts, counts, hkeys]
  rw [inEffect, inEffect, latest, latest, hcounts, hopinions]

end Testimony

namespace Opinion

theorem supersedes_iff_lt {o p : Opinion} :
    o.supersedes p ↔ p.body.serial < o.body.serial ∨
      (p.body.serial = o.body.serial ∧ o.signature < p.signature) := by
  rw [supersedes_iff, eq_comm (a := o.body.serial)]

theorem not_supersedes_iff {o p : Opinion} :
    ¬ p.supersedes o ↔ p.body.serial < o.body.serial ∨
      (p.body.serial = o.body.serial ∧ o.signature ≤ p.signature) := by
  rw [supersedes_iff, not_or, UInt32.not_lt]
  constructor
  · rintro ⟨hle, hsig⟩
    rcases UInt32.lt_or_eq_of_le hle with hlt | heq
    · exact Or.inl hlt
    · exact Or.inr ⟨heq, List.not_lt.mp fun hlt => hsig ⟨heq, hlt⟩⟩
  · rintro (hlt | ⟨heq, hsig⟩)
    · exact ⟨UInt32.le_of_lt hlt, fun h => UInt32.ne_of_lt hlt h.1⟩
    · exact ⟨UInt32.le_of_eq heq, fun h => List.not_lt.mpr hsig h.2⟩

theorem prevails_filter {os : List Opinion} {p : Opinion → Bool} {signer : SignerId} {o : Opinion} :
    Prevails (os.filter p) signer o ↔
      (p o ∧ o.body.signerId = signer) ∧ ∃ front back, os = front ++ o :: back ∧
        (∀ q ∈ front, p q ∧ q.body.signerId = signer → o.supersedes q) ∧
        ∀ q ∈ back, p q ∧ q.body.signerId = signer → ¬ q.supersedes o := by
  constructor
  · rintro ⟨hsigner, front, back, hsplit, hf, hb⟩
    obtain ⟨front', rest, rfl, rfl, hrest⟩ := List.filter_eq_append_iff.mp hsplit
    obtain ⟨skipped, back', rfl, hskipped, ho, rfl⟩ := List.filter_eq_cons_iff.mp hrest
    refine ⟨⟨ho, hsigner⟩, front' ++ skipped, back', by simp, ?_, ?_⟩
    · rintro q hq ⟨hpq, hqs⟩
      rcases List.mem_append.mp hq with hq | hq
      · exact hf q (List.mem_filter.mpr ⟨hq, hpq⟩) hqs
      · exact absurd hpq (hskipped q hq)
    · rintro q hq ⟨hpq, hqs⟩
      exact hb q (List.mem_filter.mpr ⟨hq, hpq⟩) hqs
  · rintro ⟨⟨ho, hsigner⟩, front, back, rfl, hf, hb⟩
    refine ⟨hsigner, front.filter p, back.filter p, by simp [ho], ?_, ?_⟩
    · intro q hq hqs
      obtain ⟨hq, hpq⟩ := List.mem_filter.mp hq
      exact hf q hq ⟨hpq, hqs⟩
    · intro q hq hqs
      obtain ⟨hq, hpq⟩ := List.mem_filter.mp hq
      exact hb q hq ⟨hpq, hqs⟩

end Opinion

namespace Testimony

variable {t : Testimony} {asOf : Instant} {id : StatementId}

theorem getElem?_latest {signer : SignerId} {o : Opinion} :
    (t.latest asOf id)[signer]? = some o ↔ t.Decides asOf id signer o := by
  rw [latest, Latest.getElem?_ofList, Opinion.prevails_filter, Decides]
  simp only [Opinion.not_supersedes_iff]
  simp only [counts_iff, Opinion.supersedes_iff_lt]

theorem mem_latest_values {o : Opinion} :
    o ∈ (t.latest asOf id).values ↔ t.Decides asOf id o.body.signerId o := by
  rw [values_eq_map_toList, List.mem_map]
  constructor
  · rintro ⟨⟨signer, p⟩, hmem, rfl⟩
    have hp := getElem?_latest.mp (Std.TreeMap.mem_toList_iff_getElem?_eq_some.mp hmem)
    rwa [hp.1.signer_eq]
  · intro h
    exact ⟨(o.body.signerId, o),
      Std.TreeMap.mem_toList_iff_getElem?_eq_some.mpr (getElem?_latest.mpr h), rfl⟩

theorem mem_inEffect {o : Opinion} :
    o ∈ t.inEffect asOf id ↔ t.Decides asOf id o.body.signerId o ∧ o.body.valid := by
  rw [inEffect, List.mem_filter, mem_latest_values]

theorem pairwise_inEffect :
    (t.inEffect asOf id).Pairwise fun a b => a.body.signerId ≠ b.body.signerId := by
  refine List.Pairwise.filter _ ?_
  rw [values_eq_map_toList, List.pairwise_map]
  refine List.Pairwise.imp_of_mem ?_ Std.TreeMap.distinct_keys_toList
  intro a b ha hb hne heq
  have hsigner : ∀ x ∈ (t.latest asOf id).toList, x.1 = x.2.body.signerId := by
    intro x hx
    have h := getElem?_latest.mp (Std.TreeMap.mem_toList_iff_getElem?_eq_some.mp hx)
    exact h.1.signer_eq.symm
  rw [hsigner a ha, hsigner b hb, heq] at hne
  exact hne (Std.ReflCmp.compare_self)

end Testimony

namespace Collection

variable {e : Engine σ} {t : Testimony} {within : σ → Prop} {cache : KeyCache}

/-- What the cache has kept is what the key store answers. -/
def Faithful (t : Testimony) (cache : KeyCache) : Prop :=
  ∀ (signer : SignerId) (key : Option PublicKey), cache[signer]? = some key → key = t.key? signer

theorem faithful_empty : Faithful t ∅ := by
  intro signer key h
  simp at h

theorem Faithful.insert (hc : Faithful t cache) (signer : SignerId) :
    Faithful t (cache.insert signer (t.key? signer)) := by
  intro g key hg
  rw [Std.TreeMap.getElem?_insert] at hg
  by_cases hs : signer = g
  · subst hs
    simpa [eq_comm] using hg
  · exact hc g key (by simpa [hs] using hg)

theorem ends_keyFor (h : e.Hears t within) (hc : Faithful t cache) (signer : SignerId) :
    ∃ cache', Faithful t cache' ∧
      Attempt.Ends within (keyFor e.keys cache signer) (.ok (t.key? signer, cache')) := by
  unfold keyFor
  cases hk : cache[signer]? with
  | some key =>
    rw [hc signer key hk]
    exact ⟨cache, hc, Attempt.ends_pure _⟩
  | none =>
    refine ⟨cache.insert signer (t.key? signer), hc.insert signer, ?_⟩
    exact Attempt.ends_bind (Attempt.ends_await (h.publicKeyFor signer)) (Attempt.ends_pure _)

theorem ends_gather (h : e.Hears t within) (id : StatementId) (asOf : Instant) (os : List Opinion)
    (hc : Faithful t cache) (latest : Latest) :
    ∃ cache', Faithful t cache' ∧ Attempt.Ends within (gather e.keys id asOf os cache latest)
      (.ok ((os.filter (t.counts asOf id)).foldl Latest.offer latest, cache')) := by
  induction os generalizing cache latest with
  | nil => exact ⟨cache, hc, Attempt.ends_pure _⟩
  | cons o os ih =>
    unfold gather
    by_cases hid : o.body.statementId = id
    · simp only [hid, ne_eq, not_true_eq_false, if_false]
      obtain ⟨cache₁, hc₁, hkey⟩ := ends_keyFor h hc o.body.signerId
      cases hk : t.key? o.body.signerId with
      | none =>
        have hcounts : t.counts asOf id o = false := by simp [Testimony.counts, hk]
        obtain ⟨cache₂, hc₂, hrest⟩ := ih hc₁ latest
        refine ⟨cache₂, hc₂, Attempt.ends_bind hkey ?_⟩
        simpa only [hk, List.filter_cons, hcounts, Bool.false_eq_true, if_false] using hrest
      | some key =>
        have hcounts : t.counts asOf id o = (o.verifies key && o.body.date ≤ asOf) := by
          simp [Testimony.counts, hk, hid]
        by_cases hv : (o.verifies key && decide (o.body.date ≤ asOf)) = true
        · obtain ⟨cache₂, hc₂, hrest⟩ := ih hc₁ (latest.offer o)
          refine ⟨cache₂, hc₂, Attempt.ends_bind hkey ?_⟩
          simpa only [hk, List.filter_cons, hcounts, hv, if_true, List.foldl_cons] using hrest
        · obtain ⟨cache₂, hc₂, hrest⟩ := ih hc₁ latest
          refine ⟨cache₂, hc₂, Attempt.ends_bind hkey ?_⟩
          simpa only [hk, List.filter_cons, hcounts, hv, Bool.false_eq_true, if_false] using hrest
    · have hcounts : t.counts asOf id o = false := by simp [Testimony.counts, hid]
      obtain ⟨cache₁, hc₁, hrest⟩ := ih hc latest
      refine ⟨cache₁, hc₁, ?_⟩
      simpa only [ne_eq, hid, not_false_eq_true, if_true, List.filter_cons, hcounts,
        Bool.false_eq_true, if_false] using hrest

theorem ends_collect (h : e.Hears t within) (hc : Faithful t cache) (id : StatementId)
    (asOf : Instant) :
    ∃ cache', Faithful t cache' ∧ Attempt.Ends within (collect e.store e.keys cache id asOf)
      (.ok (t.inEffect asOf id, cache')) := by
  obtain ⟨cache', hc', hgather⟩ := ends_gather h id asOf (t.opinions id) hc ∅
  refine ⟨cache', hc', ?_⟩
  exact Attempt.ends_bind (Attempt.ends_await (h.getOpinions id))
    (Attempt.ends_bind hgather (Attempt.ends_pure _))

end Collection
end Reputation
