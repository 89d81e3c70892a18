import Reputation.Proofs.Resolution.Submission
import Reputation.Proofs.Store.Memory
import Reputation.Proofs.Store.Tables
/-!
Submissions over the two stores. Both keep what they are given, so a submission that went through
takes effect on what they answer from then on.
-/
namespace Reputation.Store

namespace Tables

theorem map_reply_eq {α : Type} {result : Except StoreError α × Tables} {a : α} {after : Tables}
    (h : result.map reply id = (.answer a, after)) : result = (.ok a, after) := by
  rcases result with ⟨result, world⟩
  obtain ⟨hreply, rfl⟩ := Prod.mk.inj h
  cases result with
  | ok x =>
    cases hreply
    rfl
  | error e => cases hreply

theorem getStatement_congr {t t' : Tables} (h : t'.statements = t.statements) (id : StatementId) :
    t'.getStatement id = t.getStatement id := by
  rw [getStatement, getStatement, h]

theorem publicKeyFor_congr {t t' : Tables} (h : t'.statements = t.statements) (signer : SignerId) :
    t'.publicKeyFor signer = t.publicKeyFor signer := by
  rw [publicKeyFor, publicKeyFor, h]

theorem keeps (trust : SignerId → Float) :
    (⟨records, keys, trust⟩ : Engine Tables).Keeps writer (fun t world => world = t) Keyed
      testimony where
  hears := hears trust
  insertStatement := by
    rintro t _ s stored after hkeyed rfl h
    have hinsert := map_reply_eq h
    obtain ⟨r, hget, hvalid, hfirst, hsecond⟩ := getStatement_insertStatement hkeyed hinsert
    obtain ⟨added, hstored⟩ := insertStatement_snd hinsert
    refine ⟨after, rfl, ?_, ?_, NewStatement.labels_eq_of_ofRecord hvalid hfirst hsecond, r, ?_,
      hvalid⟩
    · rw [hstored]
      rfl
    · intro signer key hkey
      rw [hstored]
      exact publicKeyFor_append hkey added
    · rintro world rfl
      refine ⟨world, rfl, ?_⟩
      change (reply (world.getStatement stored.id), world) = _
      rw [hget]
      rfl
  insertOpinion := by
    rintro t _ ⟨body, signature⟩ opinion after hdate rfl h
    obtain ⟨hsigned, hstatements, hperm⟩ := insertOpinion_ok (map_reply_eq h)
    refine ⟨after, rfl, ?_, funext (publicKeyFor_congr hstatements), hperm, ?_⟩
    · rw [hsigned, hdate]
    · rintro id r hanswers world rfl
      obtain ⟨_, rfl, hget⟩ := hanswers _ rfl
      refine ⟨world, rfl, ?_⟩
      change (reply (world.getStatement id), world) = _
      rw [getStatement_congr hstatements]
      exact congrArg (fun answered => (answered.1, world)) hget

end Tables

namespace Rehearsal

theorem keeps (trust : SignerId → Float) :
    (⟨records, keys, trust⟩ : Engine Rehearsal).Keeps writer Undisturbed Memory.Keyed
      Memory.testimony where
  hears := hears trust
  insertStatement := by
    intro m r s stored after hkeyed hr h
    obtain ⟨between, hbetween, hinsert⟩ := perform_eq hr .insertStatement none (·.insertStatement s)
    obtain ⟨hanswer, rfl⟩ := Prod.mk.inj (h.symm.trans hinsert)
    obtain ⟨record, statements, hstored, hget, hvalid, hfirst, hsecond⟩ :=
      Memory.insertStatement_answer hkeyed hanswer.symm
    rw [hstored] at hbetween
    refine ⟨_, hbetween, rfl, fun _ _ hkey => hkey,
      NewStatement.labels_eq_of_ofRecord hvalid hfirst hsecond, record, ?_, hvalid⟩
    rw [← hget]
    exact consult_answers _ .getStatement (some stored.id.val) (·.statements[stored.id]?)
  insertOpinion := by
    intro m r o opinion after _ hr h
    obtain ⟨last, hlast, hinsert⟩ := perform_eq hr .insertOpinion none fun memory =>
      (memory.insertOpinion o).map .answer id
    obtain ⟨hanswer, rfl⟩ := Prod.mk.inj (h.symm.trans hinsert)
    obtain rfl : opinion = (m.insertOpinion o).1 := Reply.answer.inj hanswer
    refine ⟨_, hlast, rfl, rfl, Memory.getOpinions_insertOpinion m o, ?_⟩
    intro id found hanswers
    obtain ⟨_, -, hanswered⟩ := hanswers r hr
    obtain ⟨_, -, hget⟩ := consult_answers m .getStatement (some id.val) (·.statements[id]?) r hr
    obtain rfl : found = m.statements[id]? :=
      Reply.answer.inj (congrArg Prod.fst (hanswered.symm.trans hget))
    exact consult_answers _ .getStatement (some id.val) (·.statements[id]?)

end Rehearsal

/-- A submission that went through takes effect, over tables and in memory. -/
theorem submit_takes_effect (trust : SignerId → Float) {ix : Index} (hix : ix.Reachable)
    {s : NewStatement} (hs : s.Parsed) (draft : Draft) (own : OwnKey) (now : Instant) :
    (∀ (t t' : Tables) (sub : Submitted) (ix' : Index), t.Keyed →
      t.publicKeyFor own.signer = some own.secret.publicKey →
      ExceptT.run ((⟨Tables.records, Tables.keys, trust⟩ : Engine Tables).submit Tables.writer ix s
        draft own now) t = (.ok (sub, ix'), t') →
      Ed25519.verify own.secret.publicKey.bytes sub.opinion.body.payload
        (Ed25519.sign own.secret.seed sub.opinion.body.payload) →
      sub.TakesEffect ⟨Tables.records, Tables.keys, trust⟩ own.signer draft.certainty
        (t.getOpinions sub.statement.id) ix' t') ∧
    ∀ (m : Memory) (r r' : Rehearsal) (sub : Submitted) (ix' : Index), m.Keyed →
      Rehearsal.Undisturbed m r → m.keys[own.signer]? = some own.secret.publicKey →
      ExceptT.run ((⟨Rehearsal.records, Rehearsal.keys, trust⟩ : Engine Rehearsal).submit
        Rehearsal.writer ix s draft own now) r = (.ok (sub, ix'), r') →
      Ed25519.verify own.secret.publicKey.bytes sub.opinion.body.payload
        (Ed25519.sign own.secret.seed sub.opinion.body.payload) →
      sub.TakesEffect ⟨Rehearsal.records, Rehearsal.keys, trust⟩ own.signer draft.certainty
        (m.getOpinions sub.statement.id) ix' r' := by
  constructor
  · intro t t' sub ix' hkeyed hkey h hverifies
    exact (Tables.keeps trust).submit_takesEffect hix.inStep hs hkeyed rfl hkey h hverifies
  · intro m r r' sub ix' hkeyed hr hkey h hverifies
    exact (Rehearsal.keeps trust).submit_takesEffect hix.inStep hs hkeyed hr hkey h hverifies

/-- The tables of a node that has stored who it is. -/
def specimenTables : Tables :=
  (Tables.empty.insertStatement (.ofKey specimenKey.publicKey)).2

def specimenContact : NewStatement :=
  ⟨"abuse_contact", .domain "example.com", some (.email "abuse@example.com")⟩

/-- In memory the statement is stored already. -/
def contactMemory : Memory where
  statements := (∅ : Std.TreeMap StatementId StatementRecord).insert ⟨2⟩
    (Memory.recordOf specimenContact.hashingEmails ⟨2⟩)
  keys := (∅ : Std.TreeMap SignerId PublicKey).insert ⟨1⟩ specimenKey.publicKey

def specimenOwner : OwnKey := ⟨specimenKey, ⟨1⟩⟩

theorem specimenContact_parsed : specimenContact.Parsed where
  first := ⟨"example.com", rfl⟩
  second e he := by
    obtain rfl := Option.some.inj he
    exact ⟨"abuse@example.com", rfl⟩

theorem specimenTables_keyed : specimenTables.Keyed := by decide +kernel

theorem publicKeyFor_specimenTables :
    specimenTables.publicKeyFor ⟨1⟩ = some specimenKey.publicKey := by decide +kernel

theorem getOpinions_specimenTables (id : StatementId) : specimenTables.getOpinions id = [] := by
  have hopinions : specimenTables.opinions = [] := by decide +kernel
  simp [Tables.getOpinions, Tables.opinionsById, hopinions]

theorem submit_specimenTables :
    ∃ sub ix t, ExceptT.run ((⟨Tables.records, Tables.keys, fun _ => 1⟩ : Engine Tables).submit
        Tables.writer (.ofStatements []) specimenContact {} specimenOwner .epoch) specimenTables =
          (.ok (sub, ix), t) ∧ sub.opinion.body = specimenBody := by
  have hrun : (ExceptT.run ((⟨Tables.records, Tables.keys, fun _ => 1⟩ : Engine Tables).submit
      Tables.writer (.ofStatements []) specimenContact {} specimenOwner .epoch)
        specimenTables).1.toOption.map (·.1.opinion.body) = some specimenBody := by decide +kernel
  obtain ⟨⟨sub, ix⟩, t, hsubmit, hbody⟩ := Attempt.run_ok_of_map hrun
  exact ⟨sub, ix, t, hsubmit, hbody⟩

theorem contactMemory_keyed : contactMemory.Keyed :=
  (Memory.keyed_empty [] _).insert (Memory.recordOf specimenContact.hashingEmails ⟨2⟩)

theorem keys_contactMemory :
    contactMemory.keys[(⟨1⟩ : SignerId)]? = some specimenKey.publicKey := by
  simp [contactMemory]

theorem submit_contactMemory :
    ∃ sub ix r, ExceptT.run ((⟨Rehearsal.records, Rehearsal.keys, fun _ => 1⟩ :
        Engine Rehearsal).submit Rehearsal.writer (.ofStatements []) specimenContact {}
          specimenOwner .epoch) { memory := contactMemory } =
            (.ok (sub, ix), r) ∧ sub.opinion.body = specimenBody := by
  have hrun : (ExceptT.run ((⟨Rehearsal.records, Rehearsal.keys, fun _ => 1⟩ :
      Engine Rehearsal).submit Rehearsal.writer (.ofStatements []) specimenContact {}
        specimenOwner .epoch) { memory := contactMemory }).1.toOption.map (·.1.opinion.body) =
          some specimenBody := by decide +kernel
  obtain ⟨⟨sub, ix⟩, r, hsubmit, hbody⟩ := Attempt.run_ok_of_map hrun
  exact ⟨sub, ix, r, hsubmit, hbody⟩

theorem submit_takes_effect_contact :
    let own : OwnKey := ⟨specimenKey, ⟨1⟩⟩
    (∃ sub ix t, ExceptT.run ((⟨Tables.records, Tables.keys, fun _ => 1⟩ : Engine Tables).submit
        Tables.writer (Index.ofStatements []) specimenContact {} own .epoch) specimenTables =
          (.ok (sub, ix), t) ∧
      sub.TakesEffect ⟨Tables.records, Tables.keys, fun _ => 1⟩ ⟨1⟩ 3 [] ix t) ∧
    ∃ sub ix r, ExceptT.run ((⟨Rehearsal.records, Rehearsal.keys, fun _ => 1⟩ :
        Engine Rehearsal).submit Rehearsal.writer (Index.ofStatements []) specimenContact {} own .epoch)
          { memory := contactMemory } = (.ok (sub, ix), r) ∧
      sub.TakesEffect ⟨Rehearsal.records, Rehearsal.keys, fun _ => 1⟩ ⟨1⟩ 3 [] ix r := by
  intro own
  obtain ⟨htables, hmemory⟩ := submit_takes_effect (fun _ => 1) (.ofStatements [])
    specimenContact_parsed {} own .epoch
  constructor
  · obtain ⟨sub, ix, t, hsubmit, hbody⟩ := submit_specimenTables
    refine ⟨sub, ix, t, hsubmit, ?_⟩
    rw [← getOpinions_specimenTables sub.statement.id]
    refine htables _ t sub ix specimenTables_keyed publicKeyFor_specimenTables hsubmit ?_
    rw [hbody]
    exact specimen_verifies
  · obtain ⟨sub, ix, r, hsubmit, hbody⟩ := submit_contactMemory
    refine ⟨sub, ix, r, hsubmit, ?_⟩
    refine hmemory contactMemory _ r sub ix contactMemory_keyed ⟨rfl, rfl⟩ keys_contactMemory
      hsubmit ?_
    rw [hbody]
    exact specimen_verifies

end Reputation.Store
