import Reputation.Proofs.Store.Atomicity
/-!
Numbers of statements in the course of time. A number stays with its statement until that is
removed. Another statement may have it afterwards, as the last of all numbers in use; what was said
about the old statement is gone by then, and only opinions that are stored from then on count for
the new one.
-/
namespace Reputation.Store.Tables

variable {t t' : Tables} {s s' : NewStatement}

/-- What a run ends with was there before, or one of its writes has brought it. -/
theorem mem_run_origin {α : Type} {rows : Tables → List α} {Brings : Tables → Write → α → Prop}
    (hwrite : ∀ t w x, x ∈ rows (t.write w) → x ∈ rows t ∨ Brings t w x) {ws : List Write} {x : α}
    (h : x ∈ rows (t.run ws)) :
    x ∈ rows t ∨ ∃ before w after, ws = before ++ w :: after ∧ Brings (t.run before) w x := by
  induction ws generalizing t with
  | nil => exact .inl h
  | cons w ws ih =>
    rcases ih h with hthere | ⟨before, w', after, rfl, hbrings⟩
    · rcases hwrite t w x hthere with hold | hbrings
      · exact .inl hold
      · exact .inr ⟨[], w, ws, rfl, hbrings⟩
    · exact .inr ⟨w :: before, w', after, rfl, hbrings⟩

/-- The write stores a statement that had no row, under a number that was free. No greater one was
in use, unless all numbers up to the greatest were taken at some time. -/
structure Adds (t : Tables) (w : Write) (row : StatementRow) : Prop where
  statement : ∃ s, w = .statement s
  present : row ∈ (t.write w).statements
  free : t.hasStatement row.id = false
  last : (∀ r ∈ t.statements, r.id < row.id) ∨ ∃ r ∈ t.statements, r.id.val = Int64.maxValue

theorem added_of_mem_insertStatement {row : StatementRow}
    (h : row ∈ (t.insertStatement s).2.statements) :
    row ∈ t.statements ∨ row = .ofNew ⟨freshId (t.statements.map (·.id.val))⟩ s ∧
      t.hasStatement row.id = false := by
  rw [insertStatement_tables] at h
  obtain hsame | ⟨row', hrow', hfree, -, hadded⟩ := storeRow_tables t s
  · rw [hsame] at h
    exact .inl h
  · rw [hadded] at h
    rcases List.mem_append.mp h with hold | hnew
    · exact .inl hold
    · obtain rfl := List.mem_singleton.mp hnew
      exact .inr ⟨hrow', hfree⟩

theorem statement_of_mem_write {w : Write} {row : StatementRow}
    (h : row ∈ (t.write w).statements) : row ∈ t.statements ∨ ∃ s, w = .statement s := by
  cases w with
  | statement s => exact .inr ⟨s, rfl⟩
  | opinion o =>
    refine .inl ?_
    rwa [write, insertOpinion_statements] at h
  | purge id => exact .inl (List.mem_of_mem_filter h)
  | hints weights usedAt =>
    obtain ⟨hints, heq, -⟩ := recordHints_tables t weights usedAt
    rw [write, heq] at h
    exact .inl h

theorem adds_of_mem_write (t : Tables) (w : Write) (row : StatementRow)
    (h : row ∈ (t.write w).statements) : row ∈ t.statements ∨ t.Adds w row := by
  rcases statement_of_mem_write h with hold | ⟨s, rfl⟩
  · exact .inl hold
  · rcases added_of_mem_insertStatement h with hold | ⟨hrow, hfree⟩
    · exact .inl hold
    · refine .inr ⟨⟨s, rfl⟩, h, hfree, ?_⟩
      by_cases htop : Int64.maxValue ∈ t.statements.map (·.id.val)
      · obtain ⟨r, hr, hid⟩ := List.mem_map.mp htop
        exact .inr ⟨r, hr, hid⟩
      · refine .inl fun r hr => ?_
        rw [hrow]
        exact lt_freshId htop (List.mem_map_of_mem hr)

theorem ofNew_of_mem_write (t : Tables) (w : Write) (row : StatementRow)
    (h : row ∈ (t.write w).statements) :
    row ∈ t.statements ∨ ∃ s, w = .statement s ∧ row = .ofNew row.id s := by
  rcases statement_of_mem_write h with hold | ⟨s, rfl⟩
  · exact .inl hold
  · rcases added_of_mem_insertStatement h with hold | ⟨hrow, -⟩
    · exact .inl hold
    · refine .inr ⟨s, rfl, ?_⟩
      rw [hrow]
      rfl

theorem exists_statement_of_mem_run {ws : List Write} {row : StatementRow}
    (h : row ∈ (empty.run ws).statements) : ∃ s, .statement s ∈ ws ∧ row = .ofNew row.id s := by
  rcases mem_run_origin ofNew_of_mem_write h with hold | ⟨before, w, after, rfl, s, rfl, hrow⟩
  · cases hold
  · exact ⟨s, by simp, hrow⟩

theorem opinions_write (t : Tables) (w : Write) :
    (t.write w).opinions.Sublist t.opinions ∨
      ∃ o, w = .opinion o ∧ (∀ r ∈ t.opinions, r.id ≠ (t.rowFor o).id) ∧
        (t.write w).opinions = t.opinions ++ [t.rowFor o] := by
  cases w with
  | statement s =>
    rw [write, insertStatement_opinions]
    exact .inl (List.Sublist.refl _)
  | opinion o =>
    have hcases := insertOpinion_outcome t o
    rw [write]
    generalize t.insertOpinion o = after at hcases ⊢
    cases hcases with
    | added hid => exact .inr ⟨o, rfl, hid, rfl⟩
    | _ => exact .inl (List.Sublist.refl _)
  | purge id => exact .inl List.filter_sublist
  | hints weights usedAt =>
    obtain ⟨hints, heq, -⟩ := recordHints_tables t weights usedAt
    rw [write, heq]
    exact .inl (List.Sublist.refl _)

/-- The write stores the signed opinion that the row reads as. -/
def Files (_ : Tables) (w : Write) (row : OpinionRow) : Prop :=
  ∃ (o : SignedOpinion) (opinion : Opinion), w = .opinion o ∧ row.toOpinion = .ok opinion ∧
    opinion.signed = ⟨{ o.body with date := o.body.date.wholeSecond }, o.signature⟩

theorem files_of_mem_write (t : Tables) (w : Write) (row : OpinionRow)
    (h : row ∈ (t.write w).opinions) : row ∈ t.opinions ∨ t.Files w row := by
  obtain hkept | ⟨o, hw, -, hadded⟩ := opinions_write t w
  · exact .inl (hkept.subset h)
  · rw [hadded] at h
    rcases List.mem_append.mp h with hold | hnew
    · exact .inl hold
    · obtain rfl := List.mem_singleton.mp hnew
      exact .inr ⟨o, _, hw, t.toOpinion_rowFor o, rfl⟩

theorem insertStatement_reads {st : Statement} (h : t.insertStatement s = (.ok st, t')) :
    (StatementRow.ofNew st.id s).toRecord.bind Statement.ofRecord = .ok st := by
  obtain ⟨row, r, hrow, hr, hv⟩ := insertStatement_ok h
  have hid : st.id = row.id := StatementRow.id_of_ofRecord hr hv
  rw [hid, ← (storeRow_ok hrow).1, hr]
  exact hv

theorem ofNew_mem_insertStatement {st : Statement} (h : t.insertStatement s = (.ok st, t')) :
    .ofNew st.id s ∈ t'.statements := by
  obtain ⟨hrow, rfl⟩ | ⟨-, rfl⟩ := insertStatement_row h
  · exact hrow
  · simp

theorem insertStatement_of_added {row : StatementRow} (hfree : t.hasStatement row.id = false)
    (hrow : row ∈ (t.insertStatement s).2.statements) :
    (t.insertStatement s).1 = (row.toRecord.bind Statement.ofRecord).mapError .core := by
  rw [insertStatement_tables] at hrow
  have hnot : row ∉ t.statements := fun hmem => hasStatement_eq_false.mp hfree row hmem rfl
  rcases hstore : t.storeRow s with ⟨e | row', after⟩
  · rw [hstore, (storeRow_error hstore).2] at hrow
    exact absurd hrow hnot
  · rw [hstore] at hrow
    obtain ⟨-, ⟨-, rfl⟩ | ⟨-, rfl⟩⟩ := storeRow_ok hstore
    · exact absurd hrow hnot
    · obtain rfl := List.mem_singleton.mp ((List.mem_append.mp hrow).resolve_left hnot)
      rw [insertStatement, hstore]

theorem run_append (t : Tables) (ws ws' : List Write) : t.run (ws ++ ws') = (t.run ws).run ws' :=
  List.foldl_append

/-- No opinion on a statement is left where the statement is not stored, so what is listed on it
later has been stored later. -/
theorem Filed.exists_opinion_of_run (h : t.Filed) {id : StatementId}
    (hfree : t.hasStatement id = false) {ws : List Write} {o : Opinion}
    (ho : o ∈ (t.run ws).getOpinions id) :
    ∃ signed : SignedOpinion, .opinion signed ∈ ws ∧
      o.signed = ⟨{ signed.body with date := signed.body.date.wholeSecond }, signed.signature⟩ := by
  obtain ⟨row, hrow, hid, hreads⟩ := mem_getOpinions.mp ho
  rcases mem_run_origin files_of_mem_write hrow with hold | ⟨before, w, after, rfl, hfiles⟩
  · exfalso
    have hstored := h.opinions_refer row hold
    rw [hid, hfree] at hstored
    cases hstored
  · obtain ⟨signed, opinion, rfl, hreads', hsigned⟩ := hfiles
    obtain rfl := Except.ok.inj (hreads.symm.trans hreads')
    exact ⟨signed, by simp, hsigned⟩

theorem listed_of_insertOpinion {o : SignedOpinion} {opinion : Opinion}
    (h : (t.insertOpinion o).1 = .ok opinion) :
    opinion.signed = ⟨{ o.body with date := o.body.date.wholeSecond }, o.signature⟩ ∧
      opinion ∈ (t.insertOpinion o).2.getOpinions o.body.statementId := by
  obtain ⟨hsigned, -, hperm⟩ := insertOpinion_ok (Prod.ext h rfl)
  exact ⟨hsigned, hperm.mem_iff.mpr List.mem_cons_self⟩

/-- A number that was given to one statement and later to another was freed in between. When the
other one got it, it was the last of all numbers (or the numbers had run out), and all opinions that
are now listed on it have been stored since. -/
theorem reused_id_was_purged {ws between : List Write} {st st' : Statement}
    (hgiven : (empty.run ws).insertStatement s = (.ok st, t))
    (hagain : (t.run between).insertStatement s' = (.ok st', t')) (hid : st'.id = st.id)
    (hother : st' ≠ st) :
    ∃ (before after : List Write) (s'' : NewStatement),
      between ++ [.statement s'] = before ++ .statement s'' :: after ∧
      ((t.run before).insertStatement s'').1 = .ok st' ∧
      .purge st.id ∈ before ∧ (t.run before).hasStatement st.id = false ∧
      ((∀ r ∈ (t.run before).statements, r.id < st.id) ∨
        ∃ r ∈ (t.run before).statements, r.id.val = Int64.maxValue) ∧
      ∀ o ∈ t'.getOpinions st.id, ∃ signed : SignedOpinion, .opinion signed ∈ after ∧
        o.signed = ⟨{ signed.body with date := signed.body.date.wholeSecond }, signed.signature⟩ := by
  have hfiled : t.Filed := by
    have h := (filed_empty.run ws).insertStatement s
    rwa [hgiven] at h
  have hrow : .ofNew st.id s ∈ t.statements := ofNew_mem_insertStatement hgiven
  have hlater : t.run (between ++ [.statement s']) = t' := by
    rw [run_append]
    exact congrArg Prod.snd hagain
  have hreads := insertStatement_reads hgiven
  have hreads' := insertStatement_reads hagain
  have hrow' : .ofNew st.id s' ∈ (t.run (between ++ [.statement s'])).statements := by
    rw [hlater, ← hid]
    exact ofNew_mem_insertStatement hagain
  rw [hid] at hreads'
  -- The two rows read as different statements, so at first only the former was there.
  have hnew : .ofNew st.id s' ∉ t.statements := by
    intro hmem
    have hsame := List.inj_on_of_nodup_map hfiled.keyed hmem hrow rfl
    rw [hsame, hreads] at hreads'
    exact hother (Except.ok.inj hreads').symm
  obtain ⟨before, w, after, hsplit, hadds⟩ :=
    (mem_run_origin adds_of_mem_write hrow').resolve_left hnew
  obtain ⟨s'', rfl⟩ := hadds.statement
  refine ⟨before, after, s'', hsplit, ?_, ?_, hadds.free, hadds.last, ?_⟩
  · rw [insertStatement_of_added hadds.free hadds.present, hreads']
    rfl
  · by_contra hkept
    exact hasStatement_eq_false.mp hadds.free _ (mem_run hrow hkept) rfl
  · rw [← hlater, hsplit, run_append]
    intro o ho
    obtain ⟨signed, hmem, hsigned⟩ := (hfiled.run before).exists_opinion_of_run hadds.free ho
    exact ⟨signed, by simpa using hmem, hsigned⟩

def specimenHolder : NewStatement := .ofKey specimenKey.publicKey

/-- The domain gets its number, an opinion is given on it, and both are removed; then the network is
stored, and the same opinion is stored again. -/
def specimenReplay : List Write :=
  [.opinion specimen.signed, .purge ⟨2⟩, .statement specimenNetwork, .opinion specimen.signed]

theorem reused_id_was_purged_replayed :
    ∃ (before after : List Write) (s'' : NewStatement),
      specimenReplay ++ [.statement specimenNetwork] = before ++ .statement s'' :: after ∧
      .purge ⟨2⟩ ∈ before ∧
      ∀ o ∈ ((((empty.run [.statement specimenHolder]).insertStatement specimenDomain).2.run
          specimenReplay).insertStatement specimenNetwork).2.getOpinions ⟨2⟩,
        ∃ signed : SignedOpinion, .opinion signed ∈ after ∧ o.signature = signed.signature := by
  let start := empty.run [.statement specimenHolder]
  let t := (start.insertStatement specimenDomain).2
  have hgiven : (start.insertStatement specimenDomain).1 = .ok (specimenDomain.statement ⟨2⟩) :=
    toOption_eq_some.mp (by decide +kernel)
  have hagain : ((t.run specimenReplay).insertStatement specimenNetwork).1 =
      .ok (specimenNetwork.statement ⟨2⟩) := toOption_eq_some.mp (by decide +kernel)
  obtain ⟨before, after, s'', hsplit, -, hpurged, -, -, hopinions⟩ :=
    reused_id_was_purged (Prod.ext hgiven rfl) (Prod.ext hagain rfl) rfl (by decide)
  refine ⟨before, after, s'', hsplit, hpurged, ?_⟩
  intro o ho
  obtain ⟨signed, hmem, hsigned⟩ := hopinions o ho
  exact ⟨signed, hmem, congrArg SignedOpinion.signature hsigned⟩

/-- The number of the domain is given to the network, and the opinion that was signed on the domain
counts for the network as soon as it is stored again. -/
theorem purged_id_given_again :
    let start := empty.run [.statement specimenHolder]
    let given := start.insertStatement specimenDomain
    let again :=
      (given.2.run [.opinion specimen.signed, .purge ⟨2⟩]).insertStatement specimenNetwork
    let replayed := (again.2.insertOpinion specimen.signed).2
    given.1 = .ok (specimenDomain.statement ⟨2⟩) ∧ again.1 = .ok (specimenNetwork.statement ⟨2⟩) ∧
      specimenNetwork ≠ specimenDomain ∧ specimen ∈ replayed.getOpinions ⟨2⟩ ∧
      replayed.testimony.Counts .epoch ⟨2⟩ ⟨1⟩ specimen := by
  intro start given again replayed
  have hgiven : given.1 = .ok (specimenDomain.statement ⟨2⟩) :=
    toOption_eq_some.mp (by decide +kernel)
  have hagain : again.1 = .ok (specimenNetwork.statement ⟨2⟩) :=
    toOption_eq_some.mp (by decide +kernel)
  have hlisted : specimen ∈ replayed.getOpinions ⟨2⟩ := by
    have hplace : (again.2.insertOpinion specimen.signed).1.toOption.map (fun o => (o.id, o.body)) =
        some (specimen.id, specimen.body) := by decide +kernel
    obtain ⟨opinion, hstored, hsame⟩ := toOption_map_eq_some.mp hplace
    obtain ⟨hsigned, hmem⟩ := listed_of_insertOpinion hstored
    obtain rfl : opinion = specimen := by
      obtain ⟨hid, hbody⟩ := Prod.mk.inj hsame
      exact (Opinion.mk.injEq ..).mpr ⟨hid, hbody, congrArg SignedOpinion.signature hsigned⟩
    exact hmem
  have hkey : replayed.testimony.key? ⟨1⟩ = some specimenKey.publicKey := by decide +kernel
  have hcounts : replayed.testimony.Counts .epoch ⟨2⟩ ⟨1⟩ specimen :=
    ⟨rfl, rfl, ⟨specimenKey.publicKey, hkey, specimen_verifies⟩, by decide⟩
  exact ⟨hgiven, hagain, by decide, hlisted, hcounts⟩

end Reputation.Store.Tables
