import Reputation.Proofs.Resolution.Mirroring
import Reputation.Proofs.Store.Framing
/-!
Forged opinions and what a node signs. The serial of a submission goes by all opinions that are
listed under the signer's number, whoever made them. A forged one with a serial in use or above
raises it; nothing else of what is signed depends on forgeries.
-/
namespace Reputation

variable {σ τ α : Type}

/-- Under the number of the key's signer, but not signed with the key. -/
def OwnKey.Forged (own : OwnKey) (o : Opinion) : Prop :=
  o.body.signerId = own.signer ∧ o.verifies own.secret.publicKey = false

/-- Everything in the first list is in the second, and what else is there is of some kind. -/
structure Adds (kind : α → Prop) (xs ys : List α) : Prop where
  old : ∀ x ∈ xs, x ∈ ys
  new : ∀ y ∈ ys, y ∈ xs ∨ kind y

namespace Engine

/-! ## Serials -/

section Serials

variable {os os' : List Opinion} {signer : SignerId} {own : OwnKey}

theorem one_le_nextSerial : 1 ≤ (nextSerial signer os).toNat := by
  by_cases h : ∃ p ∈ os, p.body.signerId = signer
  · obtain ⟨p, hp, hsigner, hgreatest⟩ := exists_greatest h
    rw [nextSerial_of_greatest hp hsigner hgreatest]
    omega
  · rw [nextSerial_eq_one fun p hp hsigner => h ⟨p, hp, hsigner⟩]
    decide

theorem succ_le_nextSerial {p : Opinion} (hp : p ∈ os) (hsigner : p.body.signerId = signer) :
    min (p.body.serial.toNat + 1) (2 ^ 32 - 1) ≤ (nextSerial signer os).toNat := by
  obtain ⟨q, hq, hqsigner, hgreatest⟩ := exists_greatest ⟨p, hp, hsigner⟩
  have hle := UInt32.le_iff_toNat_le.mp (hgreatest p hp hsigner)
  rw [nextSerial_of_greatest hq hqsigner hgreatest]
  omega

theorem nextSerial_attained (signer : SignerId) (os : List Opinion) :
    nextSerial signer os = 1 ∨ ∃ p ∈ os, p.body.signerId = signer ∧
    (nextSerial signer os).toNat = min (p.body.serial.toNat + 1) (2 ^ 32 - 1) := by
  by_cases h : ∃ p ∈ os, p.body.signerId = signer
  · obtain ⟨p, hp, hsigner, hgreatest⟩ := exists_greatest h
    exact .inr ⟨p, hp, hsigner, nextSerial_of_greatest hp hsigner hgreatest⟩
  · exact .inl (nextSerial_eq_one fun p hp hsigner => h ⟨p, hp, hsigner⟩)

theorem nextSerial_le_of_subset (signer : SignerId) (h : ∀ p ∈ os, p ∈ os') :
    nextSerial signer os ≤ nextSerial signer os' := by
  rw [UInt32.le_iff_toNat_le]
  obtain hone | ⟨p, hp, hsigner, hnext⟩ := nextSerial_attained signer os
  · rw [hone]
    exact one_le_nextSerial
  · rw [hnext]
    exact succ_le_nextSerial (h p hp) hsigner

/-- Forged opinions leave the serial alone just if all of theirs are below it. -/
theorem nextSerial_eq_iff (h : Adds own.Forged os os') :
    nextSerial own.signer os' = nextSerial own.signer os ↔ ∀ p ∈ os', own.Forged p →
      p.body.serial < nextSerial own.signer os ∨ nextSerial own.signer os = 0xffffffff := by
  have hle := UInt32.le_iff_toNat_le.mp (nextSerial_le_of_subset own.signer h.old)
  constructor
  · intro heq p hp hforged
    have hexceeded := succ_le_nextSerial hp hforged.1
    rw [heq] at hexceeded
    have hlt := (nextSerial own.signer os).toNat_lt
    rw [UInt32.lt_iff_toNat_lt, ← UInt32.toNat_inj]
    change _ ∨ _ = 4294967295
    omega
  · intro hbelow
    rw [← UInt32.toNat_inj]
    refine Nat.le_antisymm ?_ hle
    obtain hone | ⟨p, hp, hsigner, hnext⟩ :=
      nextSerial_attained own.signer os'
    · rw [hone]
      exact one_le_nextSerial
    · rw [hnext]
      rcases h.new p hp with hold | hforged
      · exact succ_le_nextSerial hold hsigner
      · rcases hbelow p hp hforged with hlt | htop
        · rw [UInt32.lt_iff_toNat_lt] at hlt
          omega
        · rw [htop]
          change _ ≤ 4294967295
          omega

end Serials

/-! ## Signing -/

/-- A submission up to the opinion that it signs. -/
def signing (e : Engine σ) (writer : StatementWriter σ) (s : NewStatement) (draft : Draft)
    (own : OwnKey) (now : Instant) : Attempt σ (Statement × SignedOpinion) := do
  let statement ← (writer.insertStatement s.hashingEmails).await
  let previous ← (e.store.getOpinions statement.id).await
  return (statement, own.sign (own.position statement.id draft now previous))

theorem submit_eq_signing (e : Engine σ) (writer : StatementWriter σ) (ix : Index)
    (s : NewStatement) (draft : Draft) (own : OwnKey) (now : Instant) :
    e.submit writer ix s draft own now = do
      let (statement, signed) ← e.signing writer s draft own now
      let opinion ← (writer.insertOpinion signed).await
      return (⟨statement, opinion⟩, ix.insert statement) := by
  unfold submit signing
  simp only [bind_assoc, pure_bind]
  rfl

/-- What is signed with and without forged opinions, where `listed` has them. Only the serial may
differ, and it does if a forgery has a serial that is not below the one due. -/
inductive Steered (own : OwnKey) (listed : StatementId → List Opinion) :
    Except Error (Statement × SignedOpinion) → Except Error (Statement × SignedOpinion) → Prop where
  | failed (e : Error) : Steered own listed (.error e) (.error e)
  | signed {s : Statement} {o o' : SignedOpinion}
      (hbody : o'.body = { o.body with serial := o'.body.serial })
      (hserial : o.body.serial ≤ o'.body.serial)
      (hsame : o' = o ↔ ∀ p ∈ listed s.id, own.Forged p →
        p.body.serial < o.body.serial ∨ o.body.serial = 0xffffffff) :
      Steered own listed (.ok (s, o)) (.ok (s, o'))

theorem Steered.eq_of_below {own : OwnKey} {listed : StatementId → List Opinion} {s : Statement}
    {o : SignedOpinion} {result : Except Error (Statement × SignedOpinion)}
    (h : Steered own listed (.ok (s, o)) result)
    (hbelow : ∀ p ∈ listed s.id, own.Forged p → p.body.serial < o.body.serial) :
    result = .ok (s, o) := by
  cases h with
  | signed hbody hserial hsame =>
    rw [hsame.mpr fun p hp hforged => .inl (hbelow p hp hforged)]

/-- From related worlds statements are stored alike, and the second store lists forged opinions
besides those of the first. -/
structure Forges (e : Engine σ) (writer : StatementWriter σ) (e' : Engine τ)
    (writer' : StatementWriter τ) (own : OwnKey) (listed : StatementId → List Opinion)
    (R : σ → τ → Prop) : Prop where
  insertStatement : ∀ s, (writer.insertStatement s).Mirrors R (writer'.insertStatement s)
  getOpinions : ∀ id w v, R w v → ∃ os, (e.store.getOpinions id w).1 = .answer os ∧
    (e'.store.getOpinions id v).1 = .answer (listed id) ∧ Adds own.Forged os (listed id)

theorem run_await_result {α : Type} (call : Call σ α) (world : σ) :
    ExceptT.run call.await world = ((call world).1.result, (call world).2) :=
  rfl

theorem Forges.signing {e : Engine σ} {writer : StatementWriter σ} {e' : Engine τ}
    {writer' : StatementWriter τ} {own : OwnKey} {listed : StatementId → List Opinion}
    {R : σ → τ → Prop} (h : e.Forges writer e' writer' own listed R) (s : NewStatement)
    (draft : Draft) (now : Instant) {w : σ} {v : τ} (hwv : R w v) :
    Steered own listed (ExceptT.run (e.signing writer s draft own now) w).1
      (ExceptT.run (e'.signing writer' s draft own now) v).1 := by
  obtain ⟨hreply, hafter⟩ := h.insertStatement s.hashingEmails w v hwv
  unfold Engine.signing
  rw [Attempt.run_bind_eq, Attempt.run_bind_eq, run_await_result, run_await_result, ← hreply]
  cases hresult : (writer.insertStatement s.hashingEmails w).1.result with
  | error err => exact .failed err
  | ok statement =>
    obtain ⟨os, hos, hos', hadds⟩ := h.getOpinions statement.id _ _ hafter
    dsimp only
    rw [Attempt.run_bind_eq, Attempt.run_bind_eq, run_await_result, run_await_result, hos, hos']
    refine .signed rfl (nextSerial_le_of_subset own.signer hadds.old) ?_
    refine Iff.trans ?_ (nextSerial_eq_iff hadds)
    constructor
    · intro heq
      exact congrArg (fun o => o.body.serial) heq
    · intro hserial
      have hposition : own.position statement.id draft now (listed statement.id) =
          own.position statement.id draft now os := by
        unfold OwnKey.position
        rw [hserial]
      exact congrArg own.sign hposition

end Engine

/-! ## Two stores -/

namespace Store

namespace Tables

variable {t u : Tables} {own : OwnKey}

theorem adds_getOpinions
    (h : Adds (fun row => ∃ o, row.toOpinion = .ok o ∧ own.Forged o) t.opinions u.opinions)
    (id : StatementId) : Adds own.Forged (t.getOpinions id) (u.getOpinions id) := by
  constructor
  · intro o ho
    obtain ⟨row, hrow, hread⟩ := mem_getOpinions.mp ho
    exact mem_getOpinions.mpr ⟨row, h.old row hrow, hread⟩
  · intro o ho
    obtain ⟨row, hrow, hid, hread⟩ := mem_getOpinions.mp ho
    rcases h.new row hrow with hold | ⟨o', hread', hforged⟩
    · exact .inl (mem_getOpinions.mpr ⟨row, hold, hid, hread⟩)
    · obtain rfl := Except.ok.inj (hread.symm.trans hread')
      exact .inr hforged

theorem forges (trust : SignerId → Float)
    (h : Adds (fun row => ∃ o, row.toOpinion = .ok o ∧ own.Forged o) t.opinions u.opinions) :
    (⟨records, keys, trust⟩ : Engine Tables).Forges writer ⟨records, keys, trust⟩ writer own
      u.getOpinions fun t' u' => u'.statements = t'.statements ∧ t'.opinions = t.opinions ∧
        u'.opinions = u.opinions where
  insertStatement s := by
    rintro t' u' ⟨hstatements, hold, hnew⟩
    have hframe : u'.insertStatement s = ((t'.insertStatement s).1,
        { (t'.insertStatement s).2 with opinions := u'.opinions, hints := u'.hints }) := by
      rw [← insertStatement_frame, ← hstatements]
    have hsame := insertStatement_opinions t' s
    change reply (t'.insertStatement s).1 = reply (u'.insertStatement s).1 ∧ _
    rw [hframe]
    refine ⟨rfl, congrArg (·.2.statements) hframe, hsame.trans hold, ?_⟩
    exact (congrArg (·.2.opinions) hframe).trans hnew
  getOpinions id := by
    rintro t' u' ⟨-, hold, hnew⟩
    refine ⟨t.getOpinions id, ?_, ?_, adds_getOpinions h id⟩
    · change Reply.answer (t'.getOpinions id) = _
      rw [getOpinions, opinionsById, hold]
      rfl
    · change Reply.answer (u'.getOpinions id) = _
      rw [getOpinions, opinionsById, hnew]
      rfl

/-- Signatures are not looked at when an opinion is stored. -/
theorem adds_insertOpinion {o : SignedOpinion} {opinion : Opinion}
    (h : t.insertOpinion o = (.ok opinion, u)) (hforged : own.Forged opinion) :
    u.statements = t.statements ∧
      Adds (fun row => ∃ o, row.toOpinion = .ok o ∧ own.Forged o) t.opinions u.opinions := by
  obtain ⟨row, hread, rfl⟩ := insertOpinion_row h
  refine ⟨rfl, fun r hr => List.mem_append_left _ hr, ?_⟩
  intro r hr
  rcases List.mem_append.mp hr with hold | hnew
  · exact .inl hold
  · obtain rfl := List.mem_singleton.mp hnew
    exact .inr ⟨opinion, hread, hforged⟩

end Tables

namespace Memory

variable {m m' : Memory} {own : OwnKey}

theorem insertStatement_frame (m : Memory) (opinions : List Opinion)
    (misfiled : List (StatementId × Opinion)) (keys : Std.TreeMap SignerId PublicKey)
    (hints : Std.TreeMap StatementId Float) (s : NewStatement) :
    insertStatement { m with opinions, misfiled, keys, hints } s =
      ((m.insertStatement s).1, { (m.insertStatement s).2 with opinions, misfiled, keys, hints }) := by
  have hstore : storeRecord { m with opinions, misfiled, keys, hints } s =
      ((m.storeRecord s).1, { (m.storeRecord s).2 with opinions, misfiled, keys, hints }) := by
    unfold storeRecord
    dsimp only
    split <;> rfl
  unfold insertStatement
  rw [hstore]
  rcases m.storeRecord s with ⟨r, after⟩
  dsimp only
  split <;> rfl

theorem getOpinions_insertStatement (m : Memory) (s : NewStatement) (id : StatementId) :
    (m.insertStatement s).2.getOpinions id = m.getOpinions id := by
  have hkept : (m.storeRecord s).2.getOpinions id = m.getOpinions id := by
    unfold storeRecord
    dsimp only
    split <;> rfl
  unfold insertStatement
  rcases hstore : m.storeRecord s with ⟨r, after⟩
  rw [hstore] at hkept
  dsimp only
  split <;> exact hkept

theorem adds_getOpinions (hopinions : Adds own.Forged m.opinions m'.opinions)
    (hmisfiled : Adds (fun entry => own.Forged entry.2) m.misfiled m'.misfiled)
    (id : StatementId) : Adds own.Forged (m.getOpinions id) (m'.getOpinions id) := by
  unfold getOpinions
  constructor
  · intro o ho
    rcases List.mem_append.mp ho with ho | ho
    · obtain ⟨hmem, hid⟩ := List.mem_filter.mp ho
      exact List.mem_append_left _ (List.mem_filter.mpr ⟨hopinions.old o hmem, hid⟩)
    · obtain ⟨entry, hentry, rfl⟩ := List.mem_map.mp ho
      obtain ⟨hmem, hid⟩ := List.mem_filter.mp hentry
      apply List.mem_append_right
      exact List.mem_map_of_mem (List.mem_filter.mpr ⟨hmisfiled.old entry hmem, hid⟩)
  · intro o ho
    rcases List.mem_append.mp ho with ho | ho
    · obtain ⟨hmem, hid⟩ := List.mem_filter.mp ho
      refine (hopinions.new o hmem).imp_left fun hold => ?_
      exact List.mem_append_left _ (List.mem_filter.mpr ⟨hold, hid⟩)
    · obtain ⟨entry, hentry, rfl⟩ := List.mem_map.mp ho
      obtain ⟨hmem, hid⟩ := List.mem_filter.mp hentry
      refine (hmisfiled.new entry hmem).imp_left fun hold => ?_
      exact List.mem_append_right _ (List.mem_map_of_mem (List.mem_filter.mpr ⟨hold, hid⟩))

end Memory

namespace Rehearsal

variable {m m' : Memory} {own : OwnKey}

theorem forges (trust : SignerId → Float) (hopinions : Adds own.Forged m.opinions m'.opinions)
    (hmisfiled : Adds (fun entry => own.Forged entry.2) m.misfiled m'.misfiled) :
    (⟨records, keys, trust⟩ : Engine Rehearsal).Forges writer ⟨records, keys, trust⟩ writer own
      m'.getOpinions fun r r' => r'.memory.statements = r.memory.statements ∧ r.rules = [] ∧
        r'.rules = [] ∧ r.memory.getOpinions = m.getOpinions ∧
        r'.memory.getOpinions = m'.getOpinions where
  insertStatement s := by
    rintro r r' ⟨hstatements, hrules, hrules', hold, hnew⟩
    obtain ⟨after, ⟨hmemory, hafter⟩, hrun⟩ :=
      perform_eq ⟨rfl, hrules⟩ .insertStatement none (·.insertStatement s)
    obtain ⟨after', ⟨hmemory', hafter'⟩, hrun'⟩ :=
      perform_eq ⟨rfl, hrules'⟩ .insertStatement none (·.insertStatement s)
    replace hrun : writer.insertStatement s r = ((r.memory.insertStatement s).1, after) := hrun
    replace hrun' : writer.insertStatement s r' = ((r'.memory.insertStatement s).1, after') := hrun'
    have hframe : r'.memory.insertStatement s = ((r.memory.insertStatement s).1,
        { (r.memory.insertStatement s).2 with
          opinions := r'.memory.opinions
          misfiled := r'.memory.misfiled
          keys := r'.memory.keys
          hints := r'.memory.hints }) := by
      rw [← Memory.insertStatement_frame, ← hstatements]
    rw [hrun, hrun']
    refine ⟨(congrArg Prod.fst hframe).symm, ?_, hafter, hafter', ?_, ?_⟩
    · rw [hmemory, hmemory', hframe]
    · rw [hmemory, ← hold]
      exact funext (Memory.getOpinions_insertStatement r.memory s)
    · rw [hmemory', ← hnew]
      exact funext (Memory.getOpinions_insertStatement r'.memory s)
  getOpinions id := by
    rintro r r' ⟨-, hrules, hrules', hold, hnew⟩
    obtain ⟨after, -, hrun⟩ := consult_answers r.memory .getOpinions (some id.val)
      (·.getOpinions id) r ⟨rfl, hrules⟩
    obtain ⟨after', -, hrun'⟩ := consult_answers r'.memory .getOpinions (some id.val)
      (·.getOpinions id) r' ⟨rfl, hrules'⟩
    refine ⟨m.getOpinions id, ?_, ?_, Memory.adds_getOpinions hopinions hmisfiled id⟩
    · rw [← hold]
      exact congrArg Prod.fst hrun
    · rw [← hnew]
      exact congrArg Prod.fst hrun'

end Rehearsal

def Tables.signs (trust : SignerId → Float) (s : NewStatement) (draft : Draft) (own : OwnKey)
    (now : Instant) (t : Tables) : Except Error (Statement × SignedOpinion) :=
  (ExceptT.run ((⟨records, keys, trust⟩ : Engine Tables).signing writer s draft own now) t).1

def Rehearsal.signs (trust : SignerId → Float) (s : NewStatement) (draft : Draft) (own : OwnKey)
    (now : Instant) (r : Rehearsal) : Except Error (Statement × SignedOpinion) :=
  (ExceptT.run ((⟨records, keys, trust⟩ : Engine Rehearsal).signing writer s draft own now) r).1

/-- A submission signs and then hands over. Over tables and in memory, what it signs is the same
with forged opinions as without, but for a serial that is raised unless all those of the forged
opinions on the statement are below it. -/
theorem forged_opinions_steer_submission (trust : SignerId → Float) (ix : Index)
    (s : NewStatement) (draft : Draft) (own : OwnKey) (now : Instant) :
    (∀ {σ : Type} (e : Engine σ) (writer : StatementWriter σ),
      e.submit writer ix s draft own now = do
        let (statement, signed) ← e.signing writer s draft own now
        let opinion ← (writer.insertOpinion signed).await
        return (⟨statement, opinion⟩, ix.insert statement)) ∧
    (∀ t u : Tables, u.statements = t.statements →
      Adds (fun row => ∃ o, row.toOpinion = .ok o ∧ own.Forged o) t.opinions u.opinions →
      Engine.Steered own u.getOpinions (t.signs trust s draft own now)
        (u.signs trust s draft own now)) ∧
    ∀ (m m' : Memory) (r r' : Rehearsal), Rehearsal.Undisturbed m r →
      Rehearsal.Undisturbed m' r' → m'.statements = m.statements →
      Adds own.Forged m.opinions m'.opinions →
      Adds (fun entry => own.Forged entry.2) m.misfiled m'.misfiled →
      Engine.Steered own m'.getOpinions (r.signs trust s draft own now)
        (r'.signs trust s draft own now) := by
  refine ⟨fun e writer => e.submit_eq_signing writer ix s draft own now, ?_, ?_⟩
  · intro t u hstatements hadds
    exact (Tables.forges trust hadds).signing s draft now ⟨hstatements, rfl, rfl⟩
  · rintro m m' r r' ⟨rfl, hrules⟩ ⟨rfl, hrules'⟩ hstatements hopinions hmisfiled
    exact (Rehearsal.forges trust hopinions hmisfiled).signing s draft now
      ⟨hstatements, hrules, hrules', rfl, rfl⟩

def contactTables : Tables :=
  (specimenTables.insertStatement specimenContact.hashingEmails).2

def settledTables : Tables :=
  (contactTables.insertOpinion ⟨{ specimenBody with serial := 7 }, []⟩).2

def settledMemory : Memory :=
  { contactMemory with opinions := [⟨⟨1⟩, { specimenBody with serial := 7 }, []⟩] }

def disputedMemory : Memory :=
  { settledMemory with opinions := forgery :: settledMemory.opinions }

theorem forgery_forged : specimenOwner.Forged forgery :=
  ⟨rfl, forgery_not_verifies⟩

theorem signs_settledTables :
    ∃ s o, settledTables.signs (fun _ => 1) specimenContact {} specimenOwner .epoch = .ok (s, o) ∧
      s.id = ⟨2⟩ ∧ o.body.serial = 8 := by
  have hrun : (settledTables.signs (fun _ => 1) specimenContact {} specimenOwner
      .epoch).toOption.map (fun signed => (signed.1.id, signed.2.body.serial)) =
        some (⟨2⟩, 8) := by decide +kernel
  obtain ⟨⟨s, o⟩, hsigned, heq⟩ := toOption_map_eq_some.mp hrun
  exact ⟨s, o, hsigned, congrArg Prod.fst heq, congrArg Prod.snd heq⟩

theorem insertOpinion_settledTables :
    ∃ u, settledTables.insertOpinion forgery.signed = (.ok forgery, u) ∧
      ∀ id, ∀ p ∈ u.getOpinions id, p.body.serial < 8 := by
  have hinsert : (settledTables.insertOpinion forgery.signed).1.toOption = some forgery := by
    decide +kernel
  have hlow : ∀ row ∈ (settledTables.insertOpinion forgery.signed).2.opinions,
      ∀ p ∈ row.toOpinion.toOption, p.body.serial < 8 := by decide +kernel
  refine ⟨_, Prod.ext (toOption_eq_some.mp hinsert) rfl, ?_⟩
  intro id p hp
  obtain ⟨row, hrow, -, hread⟩ := Tables.mem_getOpinions.mp hp
  exact hlow row hrow p (toOption_eq_some.mpr hread)

theorem signs_settledMemory :
    ∃ s o, Rehearsal.signs (fun _ => 1) specimenContact {} specimenOwner .epoch
        { memory := settledMemory } = .ok (s, o) ∧ s.id = ⟨2⟩ ∧ o.body.serial = 8 := by
  have hrun : (Rehearsal.signs (fun _ => 1) specimenContact {} specimenOwner .epoch
      { memory := settledMemory }).toOption.map
        (fun signed => (signed.1.id, signed.2.body.serial)) = some (⟨2⟩, 8) := by decide +kernel
  obtain ⟨⟨s, o⟩, hsigned, heq⟩ := toOption_map_eq_some.mp hrun
  exact ⟨s, o, hsigned, congrArg Prod.fst heq, congrArg Prod.snd heq⟩

theorem adds_disputedMemory :
    Adds specimenOwner.Forged settledMemory.opinions disputedMemory.opinions := by
  refine ⟨fun p hp => List.mem_cons_of_mem _ hp, ?_⟩
  intro p hp
  rcases List.mem_cons.mp hp with rfl | hp
  · exact .inr forgery_forged
  · exact .inl hp

theorem serial_lt_disputedMemory : ∀ p ∈ disputedMemory.getOpinions ⟨2⟩, p.body.serial < 8 := by
  decide +kernel

/-- Forged opinions whose serials have long been passed make no difference. -/
theorem forged_opinions_steer_submission_settled :
    let own : OwnKey := ⟨specimenKey, ⟨1⟩⟩
    (∃ u s o, settledTables.insertOpinion forgery.signed = (.ok forgery, u) ∧
      settledTables.signs (fun _ => 1) specimenContact {} own .epoch = .ok (s, o) ∧
      u.signs (fun _ => 1) specimenContact {} own .epoch = .ok (s, o) ∧ o.body.serial = 8) ∧
    ∃ s o, Rehearsal.signs (fun _ => 1) specimenContact {} own .epoch { memory := settledMemory } =
        .ok (s, o) ∧
      Rehearsal.signs (fun _ => 1) specimenContact {} own .epoch { memory := disputedMemory } =
        .ok (s, o) ∧ o.body.serial = 8 := by
  intro own
  obtain ⟨-, htables, hmemory⟩ := forged_opinions_steer_submission (fun _ => 1) (.ofStatements [])
    specimenContact {} specimenOwner .epoch
  constructor
  · obtain ⟨u, hstored, hlow⟩ := insertOpinion_settledTables
    obtain ⟨s, o, hsigned, -, hserial⟩ := signs_settledTables
    obtain ⟨hstatements, hadds⟩ := Tables.adds_insertOpinion hstored forgery_forged
    have hsteered := htables settledTables u hstatements hadds
    rw [hsigned] at hsteered
    refine ⟨u, s, o, hstored, hsigned, hsteered.eq_of_below ?_, hserial⟩
    intro p hp _
    rw [hserial]
    exact hlow _ p hp
  · obtain ⟨s, o, hsigned, hid, hserial⟩ := signs_settledMemory
    have hsteered := hmemory settledMemory disputedMemory { memory := settledMemory }
      { memory := disputedMemory } ⟨rfl, rfl⟩ ⟨rfl, rfl⟩ rfl adds_disputedMemory
      ⟨fun _ h => h, fun _ h => .inl h⟩
    rw [hsigned] at hsteered
    refine ⟨s, o, hsigned, hsteered.eq_of_below ?_, hserial⟩
    intro p hp _
    rw [hserial]
    exact serial_lt_disputedMemory p (hid ▸ hp)

/-- One opinion that the node never gave makes it sign above a serial that it never used. -/
theorem forged_opinion_raises_serial :
    let own : OwnKey := ⟨specimenKey, ⟨1⟩⟩
    let submitted t := (ExceptT.run ((⟨Tables.records, Tables.keys, fun _ => 1⟩ :
      Engine Tables).submit Tables.writer (.ofStatements []) specimenContact {} own
        .epoch) t).1.toOption.map fun done => done.1.opinion.body.serial
    (contactTables.insertOpinion forgery.signed).1.toOption = some { forgery with id := ⟨1⟩ } ∧
      own.Forged { forgery with id := ⟨1⟩ } ∧ submitted contactTables = some 1 ∧
      submitted (contactTables.insertOpinion forgery.signed).2 = some 3 := by
  intro own submitted
  exact ⟨by decide +kernel, forgery_forged, by decide +kernel, by decide +kernel⟩

end Store
end Reputation
