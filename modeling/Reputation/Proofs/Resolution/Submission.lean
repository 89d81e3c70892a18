import Reputation.Proofs.Entity.Label
import Reputation.Proofs.Index.Agreement
import Reputation.Proofs.Opinion.Payload
import Reputation.Proofs.Resolution.Answers
/-!
Submissions. A submission signs above every serial that its signer has used on the statement, so
over stores that keep what they are given it decides for its signer from its date on, and the index
finds the statement at once.
-/
namespace Reputation

variable {σ α β : Type}

namespace Attempt

variable {world after : σ}

theorem run_bind_ok {a : Attempt σ α} {f : α → Attempt σ β} {y : β}
    (h : ExceptT.run (a >>= f) world = (.ok y, after)) :
    ∃ x between, ExceptT.run a world = (.ok x, between) ∧
      ExceptT.run (f x) between = (.ok y, after) := by
  rw [run_bind_eq] at h
  rcases hrun : ExceptT.run a world with ⟨result, between⟩
  rw [hrun] at h
  cases result with
  | ok x => exact ⟨x, between, rfl, h⟩
  | error e => cases h

theorem run_ok_of_map {a : Attempt σ α} {f : α → β} {y : β}
    (h : (ExceptT.run a world).1.toOption.map f = some y) :
    ∃ x after, ExceptT.run a world = (.ok x, after) ∧ f x = y := by
  obtain ⟨x, hx, hy⟩ := toOption_map_eq_some.mp h
  exact ⟨x, _, Prod.ext hx rfl, hy⟩

theorem run_await_ok {call : Call σ α} {x : α}
    (h : ExceptT.run call.await world = (.ok x, after)) : call world = (.answer x, after) := by
  change (call world).map Reply.result id = _ at h
  rcases hcall : call world with ⟨reply, between⟩
  rw [hcall] at h
  cases reply with
  | answer a =>
    obtain ⟨ha, rfl⟩ := Prod.mk.inj h
    cases ha
    rfl
  | failure f => cases h
  | late => cases h

end Attempt

instance lawfulOrderMaxUInt32 : Std.LawfulOrderMax UInt32 where
  max_eq_or a b := by
    have hmax : max a b = if a ≤ b then b else a := rfl
    rw [hmax]
    by_cases h : a ≤ b
    · simp [h]
    · simp [h]
  max_le_iff a b c := by
    have hmax : max a b = if a ≤ b then b else a := rfl
    rw [hmax]
    simp only [UInt32.le_iff_toNat_le]
    by_cases h : a.toNat ≤ b.toNat
    · simp only [h, if_true]
      omega
    · simp only [h, if_false]
      omega

namespace Engine

variable {os : List Opinion} {signer : SignerId}

theorem nextSerial_eq_one (h : ∀ p ∈ os, p.body.signerId ≠ signer) : nextSerial signer os = 1 := by
  have hnone : os.filter (·.body.signerId = signer) = [] := by
    rw [List.filter_eq_nil_iff]
    intro p hp
    simpa using h p hp
  simp [nextSerial, hnone]

/-- One above the greatest serial, which stays where it is if it is the greatest possible one. -/
theorem nextSerial_of_greatest {p : Opinion} (hp : p ∈ os) (hsigner : p.body.signerId = signer)
    (h : ∀ q ∈ os, q.body.signerId = signer → q.body.serial ≤ p.body.serial) :
    (nextSerial signer os).toNat = min (p.body.serial.toNat + 1) (2 ^ 32 - 1) := by
  have hmax : ((os.filter (·.body.signerId = signer)).map (·.body.serial)).max? =
      some p.body.serial := by
    rw [List.max?_eq_some_iff]
    constructor
    · exact List.mem_map_of_mem (List.mem_filter.mpr ⟨hp, by simpa using hsigner⟩)
    · intro serial hserial
      obtain ⟨q, hq, rfl⟩ := List.mem_map.mp hserial
      obtain ⟨hmem, hown⟩ := List.mem_filter.mp hq
      exact h q hmem (by simpa using hown)
  have hlt := p.body.serial.toNat_lt
  simp only [nextSerial, hmax]
  by_cases htop : p.body.serial = 0xffffffff
  · simp [htop]
  · have hne : p.body.serial.toNat ≠ 4294967295 := fun heq => htop (UInt32.toNat_inj.mp heq)
    simp only [htop, if_false, UInt32.toNat_add, UInt32.toNat_one]
    omega

theorem exists_greatest (h : ∃ p ∈ os, p.body.signerId = signer) :
    ∃ p ∈ os, p.body.signerId = signer ∧
      ∀ q ∈ os, q.body.signerId = signer → q.body.serial ≤ p.body.serial := by
  obtain ⟨p, hp, hsigner⟩ := h
  have hmem : p.body.serial ∈ (os.filter (·.body.signerId = signer)).map (·.body.serial) :=
    List.mem_map_of_mem (List.mem_filter.mpr ⟨hp, by simpa using hsigner⟩)
  obtain ⟨greatest, hgreatest⟩ := Option.isSome_iff_exists.mp (List.isSome_max?_of_mem hmem)
  obtain ⟨hin, hle⟩ := List.max?_eq_some_iff.mp hgreatest
  obtain ⟨q, hq, rfl⟩ := List.mem_map.mp hin
  obtain ⟨hqmem, hqsigner⟩ := List.mem_filter.mp hq
  refine ⟨q, hqmem, by simpa using hqsigner, ?_⟩
  intro r hr hrsigner
  exact hle _ (List.mem_map_of_mem (List.mem_filter.mpr ⟨hr, by simpa using hrsigner⟩))

theorem lt_nextSerial (hroom : ∀ p ∈ os, p.body.signerId = signer → p.body.serial < 0xffffffff)
    {p : Opinion} (hp : p ∈ os) (hsigner : p.body.signerId = signer) :
    p.body.serial < nextSerial signer os := by
  obtain ⟨q, hq, hqsigner, hgreatest⟩ := exists_greatest ⟨p, hp, hsigner⟩
  have hnext := nextSerial_of_greatest hq hqsigner hgreatest
  have hle := UInt32.le_iff_toNat_le.mp (hgreatest p hp hsigner)
  have hlt := UInt32.lt_iff_toNat_lt.mp (hroom q hq hqsigner)
  rw [UInt32.lt_iff_toNat_lt, hnext]
  change _ < 4294967295 at hlt
  omega

end Engine

/-- What the holder of a key says about a statement on which these opinions are listed. -/
def OwnKey.position (own : OwnKey) (id : StatementId) (draft : Draft) (now : Instant)
    (previous : List Opinion) : OpinionBody where
  statementId := id
  signerId := own.signer
  date := now.wholeSecond
  valid := true
  serial := Engine.nextSerial own.signer previous
  certainty := draft.certainty
  comment := draft.comment

theorem OwnKey.sign_position (own : OwnKey) (id : StatementId) (draft : Draft) (now : Instant)
    (previous : List Opinion) : own.sign (own.position id draft now previous) =
      ⟨own.position id draft now previous,
        Ed25519.sign own.secret.seed (own.position id draft now previous).payload⟩ :=
  rfl

/-- The calls that a submission that went through has made. -/
theorem Engine.submit_ok {e : Engine σ} {writer : StatementWriter σ} {ix ix' : Index}
    {s : NewStatement} {draft : Draft} {own : OwnKey} {now : Instant} {sub : Submitted}
    {world after : σ}
    (h : ExceptT.run (e.submit writer ix s draft own now) world = (.ok (sub, ix'), after)) :
    ∃ stored listed previous,
      writer.insertStatement s.hashingEmails world = (.answer sub.statement, stored) ∧
      e.store.getOpinions sub.statement.id stored = (.answer previous, listed) ∧
      writer.insertOpinion (own.sign (own.position sub.statement.id draft now previous)) listed =
        (.answer sub.opinion, after) ∧
      ix' = ix.insert sub.statement := by
  obtain ⟨statement, stored, hstatement, h⟩ := Attempt.run_bind_ok h
  obtain ⟨previous, listed, hlisted, h⟩ := Attempt.run_bind_ok h
  obtain ⟨opinion, between, hopinion, h⟩ := Attempt.run_bind_ok h
  obtain ⟨hresult, rfl⟩ := Prod.mk.inj h
  cases hresult
  exact ⟨stored, listed, previous, Attempt.run_await_ok hstatement,
    Attempt.run_await_ok hlisted, Attempt.run_await_ok hopinion, rfl⟩

namespace NewStatement

def labels (s : NewStatement) : List String :=
  s.first.label :: (s.second.map Entity.label).toList

theorem labels_eq_of_ofRecord {s : NewStatement} {r : StatementRecord} {stored : Statement}
    (hvalid : Statement.ofRecord r = .ok stored) (hfirst : r.firstEntity = s.first.label)
    (hsecond : r.secondEntity = s.second.map Entity.label) : stored.labels = s.labels := by
  obtain ⟨range, rfl⟩ := Statement.ofRecord_ok hvalid
  rw [Statement.labels, labels, hfirst, hsecond]

/-- The entities were read from texts. -/
structure Parsed (s : NewStatement) : Prop where
  first : ∃ text, Entity.parse text = .ok s.first
  second : ∀ e, s.second = some e → ∃ text, Entity.parse text = .ok e

theorem Parsed.no_email {s : NewStatement} (h : s.Parsed) {label : String}
    (hlabel : label ∈ s.hashingEmails.labels) (a : String) :
    Entity.parse label ≠ .ok (.email a) := by
  rcases List.mem_cons.mp hlabel with rfl | hlabel
  · obtain ⟨text, htext⟩ := h.first
    exact Entity.parse_label_hashingEmail_ne htext a
  · simp only [hashingEmails, Option.map_map, Option.mem_toList, Option.map_eq_some_iff] at hlabel
    obtain ⟨e, he, rfl⟩ := hlabel
    obtain ⟨text, htext⟩ := h.second e he
    exact Entity.parse_label_hashingEmail_ne htext a

end NewStatement

theorem Testimony.decides_added {t : Testimony} {asOf : Instant} {id : StatementId}
    {signer : SignerId} {o : Opinion} {previous : List Opinion}
    (hperm : (t.opinions id).Perm (o :: previous)) (hcounts : t.Counts asOf id signer o)
    (hlower : ∀ p ∈ previous, p.body.signerId = signer → p.body.serial < o.body.serial) :
    t.Decides asOf id signer o := by
  obtain ⟨front, back, hsplit⟩ := List.append_of_mem (hperm.mem_iff.mpr List.mem_cons_self)
  have hrest : (front ++ back).Perm previous := by
    rw [hsplit] at hperm
    exact List.Perm.cons_inv (List.perm_middle.symm.trans hperm)
  refine ⟨hcounts, front, back, hsplit, ?_, ?_⟩
  · intro p hp hcount
    exact Or.inl (hlower p (hrest.mem_iff.mp (List.mem_append_left _ hp)) hcount.signer_eq)
  · intro p hp hcount
    exact Or.inl (hlower p (hrest.mem_iff.mp (List.mem_append_right _ hp)) hcount.signer_eq)

/-- What a submission brings about: the serial it signs, what the statement's verdict shows of the
signer from then on, and how the index finds the statement. -/
structure Submitted.TakesEffect (sub : Submitted) (e : Engine σ) (signer : SignerId)
    (certainty : Int32) (previous : List Opinion) (ix : Index) (after : σ) : Prop where
  first_serial : (∀ p ∈ previous, p.body.signerId ≠ signer) → sub.opinion.body.serial = 1
  next_serial : ∀ p ∈ previous, p.body.signerId = signer →
    (∀ q ∈ previous, q.body.signerId = signer → q.body.serial ≤ p.body.serial) →
      sub.opinion.body.serial.toNat = min (p.body.serial.toNat + 1) (2 ^ 32 - 1)
  decides : (∀ p ∈ previous, p.body.signerId = signer → p.body.serial < 0xffffffff) →
    ∀ asOf, sub.opinion.body.date ≤ asOf →
      ∃ v k, (ExceptT.run (e.resolveStatement sub.statement.id asOf) after).1 = .ok v ∧
        v.contributing.filter (·.signerId = signer) = [k] ∧ k.certainty = certainty
  no_email : ∀ label ∈ sub.statement.labels, ∀ a, Entity.parse label ≠ .ok (.email a)
  found_by_label : sub.statement.range = none →
    ∀ label ∈ sub.statement.labels, sub.statement.id ∈ ix.queryExact label
  found_by_range : ∀ r, sub.statement.range = some r → ∀ q : AddressRange, q.min ≤ q.max →
    r.covers q → sub.statement.id ∈ ix.queryCovering q

/-- After a submission the stores have what they were given, and nothing was taken away from what
they had on the statement. -/
structure Submitted.Kept (sub : Submitted) (e : Engine σ) (previous : List Opinion)
    (t : Testimony) (within : σ → Prop) : Prop where
  hears : e.Hears t within
  stored : ∃ r, (e.store.getStatement sub.statement.id).Answers within (some r) ∧
    Statement.ofRecord r = .ok sub.statement
  opinions : (t.opinions sub.statement.id).Perm (sub.opinion :: previous)

namespace Submitted.Kept

variable {sub : Submitted} {e : Engine σ} {previous : List Opinion} {t : Testimony}
variable {within : σ → Prop} {own : OwnKey} {draft : Draft} {now asOf : Instant}

theorem decides (h : sub.Kept e previous t within)
    (hbody : sub.opinion.body = own.position sub.statement.id draft now previous)
    (hkey : t.key? own.signer = some own.secret.publicKey)
    (hverifies : sub.opinion.verifies own.secret.publicKey)
    (hroom : ∀ p ∈ previous, p.body.signerId = own.signer → p.body.serial < 0xffffffff)
    (hdate : sub.opinion.body.date ≤ asOf) :
    t.Decides asOf sub.statement.id own.signer sub.opinion := by
  refine Testimony.decides_added h.opinions ?_ ?_
  · exact ⟨congrArg OpinionBody.statementId hbody, congrArg OpinionBody.signerId hbody,
      ⟨own.secret.publicKey, hkey, hverifies⟩, hdate⟩
  · intro p hp hsigner
    rw [hbody]
    exact Engine.lt_nextSerial hroom hp hsigner

/-- A valid opinion that decides is the one contribution of its signer to the verdict. -/
theorem contributes_once (h : sub.Kept e previous t within) {signer : SignerId}
    (hdecides : t.Decides asOf sub.statement.id signer sub.opinion)
    (hvalid : sub.opinion.body.valid) {after : σ} (hw : within after) :
    ∃ v k, (ExceptT.run (e.resolveStatement sub.statement.id asOf) after).1 = .ok v ∧
      v.contributing.filter (·.signerId = signer) = [k] ∧
      k.certainty = sub.opinion.body.certainty := by
  obtain ⟨r, hr, hv⟩ := h.stored
  obtain ⟨ks, hends, hsorted, hmem⟩ := Engine.ends_resolveStatement h.hears hr hv asOf
  obtain ⟨last, -, hrun⟩ := hends after hw
  let k : Contribution :=
    ⟨sub.statement.id, signer, sub.opinion.body.certainty, usableWeight (e.trust signer)⟩
  have hk : k ∈ ks := (hmem k).mpr ⟨rfl, ⟨sub.opinion, hdecides, hvalid, rfl⟩, rfl⟩
  refine ⟨_, k, congrArg Prod.fst hrun, ?_, rfl⟩
  rw [Verdict.weighing_contributing]
  exact Contribution.filter_signer hsorted (fun x hx => ((hmem x).mp hx).1) hk

theorem takesEffect (h : sub.Kept e previous t within) {ix : Index} (hix : ix.InStep)
    {s : NewStatement} (hs : s.Parsed) (hlabels : sub.statement.labels = s.hashingEmails.labels)
    (hsigned : sub.opinion.signed = own.sign (own.position sub.statement.id draft now previous))
    (hkey : t.key? own.signer = some own.secret.publicKey)
    (hverifies : Ed25519.verify own.secret.publicKey.bytes sub.opinion.body.payload
      (Ed25519.sign own.secret.seed sub.opinion.body.payload))
    {after : σ} (hw : within after) :
    sub.TakesEffect e own.signer draft.certainty previous (ix.insert sub.statement) after := by
  rw [OwnKey.sign_position] at hsigned
  obtain ⟨hbody, hsignature⟩ := SignedOpinion.mk.inj hsigned
  have hserial : sub.opinion.body.serial = Engine.nextSerial own.signer previous :=
    congrArg OpinionBody.serial hbody
  have hown : sub.opinion.verifies own.secret.publicKey := by
    rw [Opinion.verifies, hsignature, ← hbody]
    exact hverifies
  refine ⟨?_, ?_, ?_, ?_, ?_, ?_⟩
  · intro hnone
    rw [hserial, Engine.nextSerial_eq_one hnone]
  · intro p hp hsigner hgreatest
    rw [hserial, Engine.nextSerial_of_greatest hp hsigner hgreatest]
  · intro hroom asOf hdate
    have hdecides := h.decides hbody hkey hown hroom hdate
    have hvalid : sub.opinion.body.valid = true := congrArg OpinionBody.valid hbody
    have hcertainty : sub.opinion.body.certainty = draft.certainty :=
      congrArg OpinionBody.certainty hbody
    rw [← hcertainty]
    exact h.contributes_once hdecides hvalid hw
  · intro label hlabel a
    rw [hlabels] at hlabel
    exact hs.no_email hlabel a
  · intro hr label hlabel
    exact Index.mem_queryExact_insert ix hr hlabel
  · intro r hr q hq hcovers
    exact hix.mem_queryCovering_insert hr hq hcovers

end Submitted.Kept

/-- A store and a writer that keep what they are given. A world shows a state, and what resolution
is told there is that of the state; storing leads to a state that has what was stored besides all
that was there. Statements are stored under numbers of their own from `Keyed` states only. -/
structure Engine.Keeps {τ : Type} (e : Engine σ) (writer : StatementWriter σ)
    (shows : τ → σ → Prop) (Keyed : τ → Prop) (told : τ → Testimony) : Prop where
  hears : ∀ x, e.Hears (told x) (shows x)
  insertStatement : ∀ {x world s stored after}, Keyed x → shows x world →
    writer.insertStatement s world = (.answer stored, after) →
    ∃ y, shows y after ∧ (told y).opinions = (told x).opinions ∧
      (∀ signer key, (told x).key? signer = some key → (told y).key? signer = some key) ∧
      stored.labels = s.labels ∧ ∃ r, (e.store.getStatement stored.id).Answers (shows y) (some r) ∧
        Statement.ofRecord r = .ok stored
  insertOpinion : ∀ {x world o opinion after}, o.body.date.wholeSecond = o.body.date →
    shows x world → writer.insertOpinion o world = (.answer opinion, after) →
    ∃ y, shows y after ∧ opinion.signed = o ∧ (told y).key? = (told x).key? ∧
      ((told y).opinions o.body.statementId).Perm
        (opinion :: (told x).opinions o.body.statementId) ∧
      ∀ id r, (e.store.getStatement id).Answers (shows x) r →
        (e.store.getStatement id).Answers (shows y) r

/-- Over stores that keep what they are given, a submission that went through takes effect. -/
theorem Engine.Keeps.submit_takesEffect {τ : Type} {e : Engine σ} {writer : StatementWriter σ}
    {shows : τ → σ → Prop} {Keyed : τ → Prop} {told : τ → Testimony}
    (h : e.Keeps writer shows Keyed told) {ix ix' : Index} (hix : ix.InStep) {s : NewStatement}
    (hs : s.Parsed) {draft : Draft} {own : OwnKey} {now : Instant} {x : τ} {world after : σ}
    {sub : Submitted} (hkeyed : Keyed x) (hworld : shows x world)
    (hkey : (told x).key? own.signer = some own.secret.publicKey)
    (hrun : ExceptT.run (e.submit writer ix s draft own now) world = (.ok (sub, ix'), after))
    (hverifies : Ed25519.verify own.secret.publicKey.bytes sub.opinion.body.payload
      (Ed25519.sign own.secret.seed sub.opinion.body.payload)) :
    sub.TakesEffect e own.signer draft.certainty ((told x).opinions sub.statement.id) ix'
      after := by
  obtain ⟨stored, listed, previous, hstatement, hlisted, hopinion, rfl⟩ := Engine.submit_ok hrun
  obtain ⟨y, hy, hopinions, hkeys, hlabels, r, hget, hvalid⟩ :=
    h.insertStatement hkeyed hworld hstatement
  obtain ⟨_, hy', hlist⟩ := (h.hears y).getOpinions sub.statement.id stored hy
  obtain ⟨hprevious, rfl⟩ := Prod.mk.inj (hlisted.symm.trans hlist)
  obtain rfl : previous = (told y).opinions sub.statement.id := Reply.answer.inj hprevious
  obtain ⟨z, hz, hsigned, hkeys', hperm, hstays⟩ := h.insertOpinion rfl hy' hopinion
  have hkept : sub.Kept e ((told x).opinions sub.statement.id) (told z) (shows z) :=
    ⟨h.hears z, ⟨r, hstays _ _ hget, hvalid⟩, hopinions ▸ hperm⟩
  rw [hopinions] at hsigned
  refine hkept.takesEffect hix hs hlabels hsigned ?_ hverifies hz
  rw [hkeys', hkeys _ _ hkey]

end Reputation
