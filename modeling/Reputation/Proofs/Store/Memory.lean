import Reputation.Proofs.Resolution.Reading
import Reputation.Store.Rehearsal
/-!
A store in memory as resolution reads it. As long as no call is made to fail, the store answers
from what is in memory, whatever it notes about the calls.
-/
namespace Reputation.Store

namespace Memory

/-- Records are kept under their own numbers. -/
def Keyed (m : Memory) : Prop :=
  ∀ (id : StatementId) (r : StatementRecord), m.statements[id]? = some r → r.id = id

theorem keyed_empty (opinions : List Opinion) (keys : Std.TreeMap SignerId PublicKey) :
    Keyed { opinions, keys } := by
  intro id r h
  simp at h

theorem Keyed.insert {m : Memory} (h : m.Keyed) (r : StatementRecord) :
    Keyed { m with statements := m.statements.insert r.id r } := by
  intro id x hx
  rw [Std.TreeMap.getElem?_insert] at hx
  by_cases hid : r.id = id
  · simp only [hid, Std.ReflCmp.compare_self, if_true, Option.some.injEq] at hx
    exact hx ▸ hid
  · exact h id x (by simpa [hid] using hx)

theorem mem_values {m : Memory} (h : m.Keyed) {r : StatementRecord} :
    r ∈ m.statements.values ↔ m.statements[r.id]? = some r := by
  rw [values_eq_map_toList, List.mem_map]
  constructor
  · rintro ⟨⟨id, _⟩, hmem, rfl⟩
    have hget := Std.TreeMap.mem_toList_iff_getElem?_eq_some.mp hmem
    rwa [h id _ hget]
  · intro hget
    exact ⟨(r.id, r), Std.TreeMap.mem_toList_iff_getElem?_eq_some.mpr hget, rfl⟩

theorem values_distinct {m : Memory} (h : m.Keyed) : (m.statements.values.map (·.id)).Nodup := by
  have hkeys : m.statements.values.map (·.id) = m.statements.toList.map (·.1) := by
    rw [values_eq_map_toList, List.map_map]
    refine List.map_congr_left ?_
    intro entry hentry
    exact h _ _ (Std.TreeMap.mem_toList_iff_getElem?_eq_some.mp hentry)
  rw [hkeys, Std.TreeMap.map_fst_toList_eq_keys]
  exact Std.TreeMap.nodup_keys

def testimony (m : Memory) : Testimony where
  opinions := m.getOpinions
  key? signer := m.keys[signer]?

def content (m : Memory) (h : m.Keyed) : Content where
  toTestimony := m.testimony
  records := m.scanStatements
  distinct := ((List.mergeSort_perm _ _).map _).nodup_iff.mpr (values_distinct h)

theorem mem_records {m : Memory} (h : m.Keyed) {r : StatementRecord} :
    r ∈ (m.content h).records ↔ m.statements[r.id]? = some r := by
  rw [← mem_values h]
  exact List.mem_mergeSort

theorem record?_eq {m : Memory} (h : m.Keyed) (id : StatementId) :
    (m.content h).record? id = m.statements[id]? := by
  ext r
  rw [Content.record?_eq_some, mem_records]
  constructor
  · rintro ⟨hget, rfl⟩
    exact hget
  · intro hget
    obtain rfl := h id r hget
    exact ⟨hget, rfl⟩

def recordOf (s : NewStatement) (id : StatementId) : StatementRecord :=
  ⟨id, s.name, s.first.label, s.second.map Entity.label, s.range?.map (·.min), s.range?.map (·.max)⟩

/-- Storing gives the record of the statement under some number, where it is then found; nothing
else changes but for a record that is added. -/
theorem storeRecord_spec {m : Memory} (h : m.Keyed) (s : NewStatement) :
    ∃ id statements, m.storeRecord s = (recordOf s id, { m with statements }) ∧
      statements[id]? = some (recordOf s id) := by
  unfold storeRecord
  dsimp only
  split
  · rename_i r hr
    have hmem := (mem_values h).mp (List.mem_of_find?_eq_some hr)
    have heq : r = recordOf s r.id := by simpa [recordOf] using List.find?_some hr
    rw [heq] at hmem ⊢
    exact ⟨r.id, m.statements, rfl, hmem⟩
  · exact ⟨m.freshStatement, m.statements.insert m.freshStatement (recordOf s m.freshStatement),
      rfl, by simp⟩

theorem insertStatement_answer {m : Memory} (h : m.Keyed) {s : NewStatement} {st : Statement}
    (hst : (m.insertStatement s).1 = .answer st) :
    ∃ r statements, (m.insertStatement s).2 = { m with statements } ∧ statements[st.id]? = some r ∧
      Statement.ofRecord r = .ok st ∧ r.firstEntity = s.first.label ∧
      r.secondEntity = s.second.map Entity.label := by
  obtain ⟨id, statements, hstore, hget⟩ := storeRecord_spec h s
  simp only [insertStatement, hstore] at hst ⊢
  cases hv : Statement.ofRecord (recordOf s id) with
  | error e =>
    rw [hv] at hst
    cases hst
  | ok st' =>
    rw [hv] at hst
    cases hst
    refine ⟨recordOf s id, statements, rfl, ?_, hv, rfl, rfl⟩
    rw [Statement.ofRecord_id hv]
    exact hget

theorem getOpinions_insertOpinion (m : Memory) (o : SignedOpinion) :
    ((m.insertOpinion o).2.getOpinions o.body.statementId).Perm
      ((m.insertOpinion o).1 :: m.getOpinions o.body.statementId) := by
  simp only [getOpinions, insertOpinion, List.filter_append, List.append_assoc]
  have hsingle : [(⟨m.freshOpinion, o.body, o.signature⟩ : Opinion)].filter
      (·.body.statementId = o.body.statementId) = [⟨m.freshOpinion, o.body, o.signature⟩] := by
    simp
  rw [hsingle]
  exact List.perm_middle

end Memory

namespace Rehearsal

/-- The store has this in memory, and no rule makes a call fail. -/
def Undisturbed (m : Memory) (r : Rehearsal) : Prop :=
  r.memory = m ∧ r.rules = []

theorem perform_eq {α : Type} {m : Memory} {r : Rehearsal} (h : Undisturbed m r) (method : Method)
    (target : Option Int64) (action : Memory → Reply α × Memory) :
    ∃ after, Undisturbed (action m).2 after ∧
      perform method target action r = ((action m).1, after) := by
  obtain ⟨rfl, hrules⟩ := h
  refine ⟨{ r.book method with memory := (action r.memory).2 }, ⟨rfl, hrules⟩, ?_⟩
  have hnone : (r.book method).rules.find? (·.appliesTo method target) = none := by
    simp [book, hrules]
  simp only [perform, hnone]
  rfl

theorem consult_answers {α : Type} (m : Memory) (method : Method) (target : Option Int64)
    (query : Memory → α) : (consult method target query).Answers (Undisturbed m) (query m) := by
  intro r hr
  exact perform_eq hr method target fun m => (.answer (query m), m)

theorem hears (trust : SignerId → Float) (m : Memory) :
    (⟨records, keys, trust⟩ : Engine Rehearsal).Hears m.testimony (Undisturbed m) where
  getOpinions id := consult_answers m .getOpinions (some id.val) (·.getOpinions id)
  publicKeyFor signer := consult_answers m .publicKeyFor (some signer.val) (·.keys[signer]?)

theorem reads (trust : SignerId → Float) {m : Memory} (h : m.Keyed) :
    (⟨records, keys, trust⟩ : Engine Rehearsal).Reads (m.content h) (Undisturbed m) where
  toHears := hears trust m
  getStatement id := by
    rw [Memory.record?_eq]
    exact consult_answers m .getStatement (some id.val) (·.statements[id]?)
  scanStatements := consult_answers m .scan none (·.scanStatements)

end Rehearsal
end Reputation.Store
