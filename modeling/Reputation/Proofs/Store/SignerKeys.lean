import Reputation.Proofs.Entity.Canonical
import Reputation.Proofs.Store.Reuse
/-!
The keys of signers. A signer is known by the statement that describes the holder of a key; the key
is read from the label in its row, so it stays what it is for as long as the row does.
-/
namespace Reputation

theorem PublicKey.parse_eq_ok_iff {s : String} {key : PublicKey} :
    parse s = .ok key ↔ s = key.text := by
  constructor
  · intro h
    exact (text_of_parse h).symm
  · rintro rfl
    exact key.parse_text

namespace Store.Tables

variable {t : Tables} {r : StatementRow} {key : PublicKey}

theorem Keyed.find?_named (h : t.Keyed) (hr : r ∈ t.statements) (name : String) :
    (t.statements.find? fun row => row.id = r.id && row.name = name) =
      if r.name = name then some r else none := by
  cases hfind : t.statements.find? fun row => row.id = r.id && row.name = name with
  | some found =>
    have hmatches := List.find?_some hfind
    rw [Bool.and_eq_true, decide_eq_true_iff, decide_eq_true_iff] at hmatches
    obtain rfl : found = r :=
      List.inj_on_of_nodup_map h (List.mem_of_find?_eq_some hfind) hr hmatches.1
    rw [if_pos hmatches.2]
  | none =>
    have hother := List.find?_eq_none.mp hfind r hr
    rw [if_neg]
    intro hname
    simp [hname] at hother

/-- A row holds a key exactly if it is named so and its first label is that of the key. Nothing
else in the row counts. -/
theorem Keyed.publicKeyFor_eq_some_iff (h : t.Keyed) (hr : r ∈ t.statements) :
    t.publicKeyFor r.id.signer = some key ↔
      r.name = NewStatement.signerName ∧ r.first = (Entity.signer key).label := by
  have hfind := h.find?_named hr NewStatement.signerName
  change ((t.statements.find? fun row => row.id = r.id && row.name = NewStatement.signerName).bind
    fun row => (PublicKey.parse row.first).toOption) = some key ↔ _
  rw [hfind]
  by_cases hname : r.name = NewStatement.signerName
  · rw [if_pos hname, Option.bind_some, toOption_eq_some, PublicKey.parse_eq_ok_iff]
    exact (and_iff_right hname).symm
  · rw [if_neg hname, Option.bind_none]
    simp [hname]

theorem Filed.publicKeyFor_run (h : t.Filed) {id : StatementId}
    (hrow : .ofNew id (.ofKey key) ∈ t.statements) {ws : List Write} (hws : .purge id ∉ ws) :
    (t.run ws).publicKeyFor id.signer = some key := by
  have hkept : .ofNew id (.ofKey key) ∈ (t.run ws).statements := mem_run hrow hws
  exact ((h.run ws).keyed.publicKeyFor_eq_some_iff hkept).mpr ⟨rfl, rfl⟩

/-- Whatever writes a new store has seen, the number that the statement of a key is stored under
gives the key, until that very number is purged. Of the rows in the store, all of them written by
statements, those give a key that have the name for it and the label of the key, and for statements
whose entities were read or made that means the key itself. -/
theorem keys_follow_signer_statements (ws : List Write) :
    (∀ key st after, (empty.run ws).insertStatement (.ofKey key) = (.ok st, after) →
      ∀ later, .purge st.id ∉ later → (after.run later).publicKeyFor st.id.signer = some key) ∧
    ∀ r ∈ (empty.run ws).statements, ∃ s, .statement s ∈ ws ∧ r = .ofNew r.id s ∧ ∀ key,
      ((empty.run ws).publicKeyFor r.id.signer = some key ↔
        s.name = NewStatement.signerName ∧ s.first.label = (Entity.signer key).label) ∧
      (s.first.Obtained → ((empty.run ws).publicKeyFor r.id.signer = some key ↔
        s.name = NewStatement.signerName ∧ s.first = .signer key)) := by
  constructor
  · intro key st after hstored later hlater
    have hafter : after.Filed := by
      have h := (filed_empty.run ws).insertStatement (.ofKey key)
      rwa [hstored] at h
    exact hafter.publicKeyFor_run (ofNew_mem_insertStatement hstored) hlater
  · intro r hr
    obtain ⟨s, hs, hrow⟩ := exists_statement_of_mem_run hr
    refine ⟨s, hs, hrow, ?_⟩
    intro key
    have hkey := @Keyed.publicKeyFor_eq_some_iff _ r key (filed_empty.run ws).keyed hr
    have hname : r.name = s.name := congrArg StatementRow.name hrow
    have hfirst : r.first = s.first.label := congrArg StatementRow.first hrow
    rw [hname, hfirst] at hkey
    refine ⟨hkey, ?_⟩
    intro hobtained
    rw [hkey, hobtained.label_inj (.parsed (Entity.parse_label_signer key))]

def specimenCoHolder : NewStatement :=
  { specimenHolder with second := some specimenDomain.first }

/-- Both statements give the key, and the holder does so after the other one is removed. -/
theorem keys_follow_signer_statements_coHolder :
    let before := empty.run [.statement specimenDomain, .statement specimenCoHolder]
    let given := before.insertStatement specimenHolder
    given.1 = .ok (specimenHolder.statement ⟨3⟩) ∧
      before.publicKeyFor ⟨2⟩ = some specimenKey.publicKey ∧
      (given.2.run [.purge ⟨2⟩, .statement specimenHolder, .opinion specimen.signed]).publicKeyFor
        ⟨3⟩ = some specimenKey.publicKey := by
  intro before given
  have hgiven : given.1 = .ok (specimenHolder.statement ⟨3⟩) :=
    toOption_eq_some.mp (by decide +kernel)
  obtain ⟨hholder, hrows⟩ :=
    keys_follow_signer_statements [.statement specimenDomain, .statement specimenCoHolder]
  refine ⟨hgiven, ?_, ?_⟩
  · obtain ⟨s, -, hrow, hkey⟩ := hrows (.ofNew ⟨2⟩ specimenCoHolder) (by decide +kernel)
    have hname := congrArg StatementRow.name hrow
    have hfirst := congrArg StatementRow.first hrow
    exact (hkey specimenKey.publicKey).1.mpr ⟨hname.symm, hfirst.symm⟩
  · exact hholder _ _ _ (Prod.ext hgiven rfl) _ (by simp [NewStatement.statement])

end Store.Tables
end Reputation
