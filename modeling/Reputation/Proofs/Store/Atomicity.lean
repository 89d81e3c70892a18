import Reputation.Proofs.Store.Indexing
import Reputation.Proofs.Store.Submission
/-!
Submissions to tables are all or nothing. A submission stores a statement and then an opinion; where
the first adds a row, no opinion refers to that row yet, and so the second cannot fail.
-/
namespace Reputation

namespace Store.Tables

variable {t t' : Tables} {o : SignedOpinion} {s : NewStatement}

theorem insertStatement_opinions (t : Tables) (s : NewStatement) :
    (t.insertStatement s).2.opinions = t.opinions := by
  rw [insertStatement_tables]
  obtain hsame | ⟨row, -, -, -, hadded⟩ := storeRow_tables t s
  · rw [hsame]
  · rw [hadded]

theorem insertStatement_error {e : StoreError} (hs : s.Obtained) (hname : s.name ≠ "")
    (h : t.insertStatement s = (.error e, t')) : t' = t := by
  rcases hrow : t.storeRow s with ⟨e' | row, after⟩
  · rw [insertStatement, hrow] at h
    rw [← (Prod.mk.inj h).2]
    exact (storeRow_error hrow).2
  · rw [(storeRow_ok hrow).1] at hrow
    rw [insertStatement_of_storeRow hs hname hrow] at h
    cases h

theorem insertStatement_row {st : Statement} (h : t.insertStatement s = (.ok st, t')) :
    (.ofNew st.id s ∈ t.statements ∧ t' = t) ∨ (t.hasStatement st.id = false ∧
      t' = { t with statements := t.statements ++ [.ofNew st.id s] }) := by
  obtain ⟨row, r, hrow, hr, hv⟩ := insertStatement_ok h
  have hid : st.id = row.id := StatementRow.id_of_ofRecord hr hv
  obtain ⟨hof, hcases⟩ := storeRow_ok hrow
  rw [hid, ← hof]
  exact hcases

theorem insertOpinion_error {e : StoreError} (h : t.insertOpinion o = (.error e, t')) : t' = t := by
  have hcases := h ▸ insertOpinion_outcome t o
  cases hcases with
  | _ => rfl

theorem insertOpinion_row {opinion : Opinion} (h : t.insertOpinion o = (.ok opinion, t')) :
    ∃ row : OpinionRow, row.toOpinion = .ok opinion ∧
      t' = { t with opinions := t.opinions ++ [row] } := by
  have hcases := h ▸ insertOpinion_outcome t o
  cases hcases with
  | added => exact ⟨t.rowFor o, t.toOpinion_rowFor o, rfl⟩

theorem insertOpinion_first (hroom : t.opinions.length < 2 ^ 63 - 1)
    (hstored : t.hasStatement o.body.statementId)
    (hfirst : ∀ r ∈ t.opinions, r.statementId ≠ o.body.statementId) :
    ∃ opinion t', t.insertOpinion o = (.ok opinion, t') := by
  have hfresh : freshId (t.opinions.map (·.id.val)) ∉ t.opinions.map (·.id.val) :=
    freshId_notMem (by simpa using hroom)
  have hcases := insertOpinion_outcome t o
  generalize t.insertOpinion o = after at hcases ⊢
  cases hcases with
  | numberTaken h =>
    obtain ⟨r, hr, hid⟩ := h
    exact absurd (List.mem_map.mpr ⟨r, hr, congrArg OpinionId.val hid⟩) hfresh
  | repeated h =>
    obtain ⟨r, hr, hkey⟩ := h
    exact absurd (congrArg Prod.fst hkey) (hfirst r hr)
  | unknown h =>
    rw [hstored] at h
    cases h
  | added => exact ⟨_, _, rfl⟩

theorem run_submit_eq (trust : SignerId → Float) (t : Tables) (ix : Index) (s : NewStatement)
    (draft : Draft) (own : OwnKey) (now : Instant) :
    ExceptT.run ((⟨records, keys, trust⟩ : Engine Tables).submit writer ix s draft own now) t =
      match t.insertStatement s.hashingEmails with
      | (.error e, stored) => (.error e.toFailure.classify, stored)
      | (.ok st, stored) =>
        match stored.insertOpinion
            (own.sign (own.position st.id draft now (stored.getOpinions st.id))) with
        | (.error e, after) => (.error e.toFailure.classify, after)
        | (.ok o, after) => (.ok (⟨st, o⟩, ix.insert st), after) := by
  have hstatement : ∀ s' : NewStatement, ExceptT.run (writer.insertStatement s').await t =
      ((reply (t.insertStatement s').1).result, (t.insertStatement s').2) := fun _ => rfl
  have hlisted : ∀ (id : StatementId) (stored : Tables),
      ExceptT.run (records.getOpinions id).await stored = (.ok (stored.getOpinions id), stored) :=
    fun _ _ => rfl
  have hopinion : ∀ (o : SignedOpinion) (stored : Tables),
      ExceptT.run (writer.insertOpinion o).await stored =
        ((reply (stored.insertOpinion o).1).result, (stored.insertOpinion o).2) := fun _ _ => rfl
  unfold Engine.submit
  rw [Attempt.run_bind_eq, hstatement]
  rcases t.insertStatement s.hashingEmails with ⟨e | st, stored⟩
  · rfl
  · simp only [reply, Reply.result]
    rw [Attempt.run_bind_eq, hlisted]
    dsimp only
    rw [Attempt.run_bind_eq, hopinion]
    unfold OwnKey.position
    generalize stored.insertOpinion _ = done
    rcases done with ⟨e | o, after⟩ <;> rfl

/-- The second write of a submission fails only where the first has found its row. -/
theorem Sound.unchanged_of_insertOpinion_error {stored : Tables} {st : Statement} {e : StoreError}
    (h : t.Sound) (hroom : t.opinions.length < 2 ^ 63 - 1)
    (hinsert : t.insertStatement s = (.ok st, stored)) (habout : o.body.statementId = st.id)
    (hopinion : stored.insertOpinion o = (.error e, t')) : t' = t := by
  rw [insertOpinion_error hopinion]
  obtain ⟨-, hsame⟩ | ⟨hfree, hadded⟩ := insertStatement_row hinsert
  · exact hsame
  · exfalso
    have hstored : stored.hasStatement o.body.statementId := by
      rw [habout, hadded]
      exact hasStatement_iff.mpr ⟨.ofNew st.id s, by simp, rfl⟩
    have hopinions : stored.opinions = t.opinions := by rw [hadded]
    have hfirst : ∀ r ∈ stored.opinions, r.statementId ≠ o.body.statementId := by
      intro r hr heq
      have hrefers := h.opinions_refer r (hopinions ▸ hr)
      rw [heq, habout, hfree] at hrefers
      cases hrefers
    obtain ⟨opinion, after, hok⟩ := insertOpinion_first (by rwa [hopinions]) hstored hfirst
    rw [hopinion] at hok
    cases hok

/-- A submission has added its opinion, and the row of its statement unless it was there. -/
structure Published (t t' : Tables) (s : NewStatement) (sub : Submitted) : Prop where
  opinions : ∃ row : OpinionRow, row.toOpinion = .ok sub.opinion ∧
    t'.opinions = t.opinions ++ [row]
  statements : (.ofNew sub.statement.id s ∈ t.statements ∧ t'.statements = t.statements) ∨
    (t.hasStatement sub.statement.id = false ∧
      t'.statements = t.statements ++ [.ofNew sub.statement.id s])
  refers : sub.opinion.body.statementId = sub.statement.id

/-- The second write does not fail where the first has added a row: either way the submission
publishes, or what is stored reads as before. -/
theorem Sound.submit_outcome (h : t.Sound) (hs : s.Obtained)
    (hroom : t.opinions.length < 2 ^ 63 - 1) (trust : SignerId → Float) (ix : Index)
    (draft : Draft) (own : OwnKey) (now : Instant) :
    (∃ e t', ExceptT.run ((⟨records, keys, trust⟩ : Engine Tables).submit writer ix s draft own
        now) t = (.error e, t') ∧ t'.Sound ∧ t'.opinions = t.opinions ∧
      t'.statement? = t.statement? ∧ (s.name ≠ "" → t' = t)) ∨
    ∃ sub t', ExceptT.run ((⟨records, keys, trust⟩ : Engine Tables).submit writer ix s draft own
        now) t = (.ok (sub, ix.insert sub.statement), t') ∧ t'.Sound ∧
      Published t t' s.hashingEmails sub ∧
      t'.statement? = Function.update t.statement? sub.statement.id (some sub.statement) := by
  have hsound := h.insertStatement hs.hashingEmails
  have hopinions := insertStatement_opinions t s.hashingEmails
  rw [run_submit_eq]
  rcases hinsert : t.insertStatement s.hashingEmails with ⟨e | st, stored⟩
  · rw [hinsert] at hsound hopinions
    refine .inl ⟨_, stored, rfl, hsound, hopinions, ?_, ?_⟩
    · exact statement?_insertStatement_error h.keyed hinsert
    · exact fun hname => insertStatement_error hs.hashingEmails hname hinsert
  · rw [hinsert] at hsound hopinions
    have hread := statement?_insertStatement_ok h.keyed hinsert
    dsimp only
    have habout : (own.position st.id draft now (stored.getOpinions st.id)).statementId = st.id :=
      rfl
    generalize own.position st.id draft now (stored.getOpinions st.id) = body at habout ⊢
    have hsound' := hsound.insertOpinion (own.sign body)
    have hkept := insertOpinion_statements stored (own.sign body)
    rcases hopinion : stored.insertOpinion (own.sign body) with ⟨e | o, after⟩
    · obtain rfl := h.unchanged_of_insertOpinion_error hroom hinsert habout hopinion
      exact .inl ⟨_, after, rfl, h, rfl, rfl, fun _ => rfl⟩
    · rw [hopinion] at hsound' hkept
      obtain ⟨row, hrow, hadded⟩ := insertOpinion_row hopinion
      obtain ⟨hsigned, -⟩ := insertOpinion_ok hopinion
      refine .inr ⟨⟨st, o⟩, after, rfl, hsound', ⟨?_, ?_, ?_⟩, ?_⟩
      · exact ⟨row, hrow, by rw [hadded, ← hopinions]⟩
      · dsimp only at hkept ⊢
        rw [hkept]
        obtain ⟨hrow, rfl⟩ | ⟨hfree, rfl⟩ := insertStatement_row hinsert
        · exact .inl ⟨hrow, rfl⟩
        · exact .inr ⟨hfree, rfl⟩
      · exact (congrArg (·.body.statementId) hsigned).trans habout
      · rw [statement?_congr hkept, hread]

end Store.Tables
end Reputation
