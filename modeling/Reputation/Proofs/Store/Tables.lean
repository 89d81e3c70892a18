import Reputation.Proofs.Opinion.Payload
import Reputation.Proofs.Store.Decoding
/-!
Tables as resolution reads and writes them. Storing a statement finds its row or adds one under a
number that was free, storing an opinion adds a row that reads back as the opinion, and neither
takes anything away.
-/
namespace Reputation.Store

theorem toInt_ofInt_seconds (t : Instant) : (Int64.ofInt t.seconds).toInt = t.seconds := by
  have hge := t.seconds_ge
  have hle := t.seconds_le
  simp only [Instant.minSeconds, Instant.maxSeconds] at hge hle
  exact Int64.toInt_ofInt_of_le (by omega) (by omega)

theorem OpinionRow.toOpinion_ofSigned (id : OpinionId) (o : SignedOpinion) :
    (ofSigned id o).toOpinion =
      .ok ⟨id, { o.body with date := o.body.date.wholeSecond }, o.signature⟩ := by
  have hserial : (ofSigned id o).serial.toInt = o.body.serial.toNat := by
    have hlt := o.body.serial.toNat_lt
    exact Int64.toInt_ofNat_of_lt (by omega)
  have hcertainty : (ofSigned id o).certainty.toInt = o.body.certainty.toInt := by
    have hlt := o.body.certainty.toInt_lt
    have hge := o.body.certainty.le_toInt
    exact Int64.toInt_ofInt_of_le (by omega) (by omega)
  have hvalid : o.body.valid = true ↔ (ofSigned id o).valid ≠ 0 := by
    cases hv : o.body.valid <;> simp [ofSigned, hv]
  exact toOpinion_eq_ok.mpr ⟨rfl, rfl, rfl, (toInt_ofInt_seconds o.body.date).symm, rfl, hvalid,
    hserial.symm, hcertainty.symm, rfl, rfl⟩

namespace Tables

def Keyed (t : Tables) : Prop := (t.statements.map (·.id)).Nodup

instance (t : Tables) : Decidable t.Keyed :=
  inferInstanceAs (Decidable (t.statements.map (·.id)).Nodup)

def testimony (t : Tables) : Testimony where
  opinions := t.getOpinions
  key? := t.publicKeyFor

theorem hears (trust : SignerId → Float) (t : Tables) :
    (⟨records, keys, trust⟩ : Engine Tables).Hears t.testimony (· = t) where
  getOpinions id := by
    rintro world rfl
    exact ⟨world, rfl, rfl⟩
  publicKeyFor signer := by
    rintro world rfl
    exact ⟨world, rfl, rfl⟩

theorem storeRow_ok {t t' : Tables} {s : NewStatement} {row : StatementRow}
    (h : t.storeRow s = (.ok row, t')) :
    row = .ofNew row.id s ∧ ((row ∈ t.statements ∧ t' = t) ∨
      (t.hasStatement row.id = false ∧ t' = { t with statements := t.statements ++ [row] })) := by
  unfold storeRow at h
  dsimp only at h
  split at h
  · split at h
    · rename_i r hr
      cases h
      have hcolumns : { row with id := ⟨0⟩ } = StatementRow.ofNew ⟨0⟩ s := by
        simpa using List.find?_some hr
      refine ⟨?_, Or.inl ⟨List.mem_of_find?_eq_some hr, rfl⟩⟩
      exact congrArg (fun r : StatementRow => { r with id := row.id }) hcolumns
    · cases h
  · split at h
    · cases h
    · rename_i hfree
      cases h
      exact ⟨rfl, Or.inr ⟨Bool.eq_false_iff.mpr hfree, rfl⟩⟩

theorem hasStatement_eq_false {t : Tables} {id : StatementId} :
    t.hasStatement id = false ↔ ∀ r ∈ t.statements, r.id ≠ id := by
  simp [hasStatement]

theorem find?_storeRow {t t' : Tables} (hkeyed : t.Keyed) {s : NewStatement} {row : StatementRow}
    (h : t.storeRow s = (.ok row, t')) :
    t'.statements.find? (fun r => r.id = row.id) = some row := by
  obtain ⟨-, ⟨hmem, rfl⟩ | ⟨hfree, rfl⟩⟩ := storeRow_ok h
  · exact (find?_key_eq_some hkeyed).mpr ⟨hmem, rfl⟩
  · have hnone : t.statements.find? (fun r => r.id = row.id) = none := by
      rw [List.find?_eq_none]
      intro r hr
      simpa using hasStatement_eq_false.mp hfree r hr
    simp [List.find?_append, hnone]

theorem insertStatement_ok {t t' : Tables} {s : NewStatement} {st : Statement}
    (h : t.insertStatement s = (.ok st, t')) :
    ∃ row r, t.storeRow s = (.ok row, t') ∧ row.toRecord = .ok r ∧
      Statement.ofRecord r = .ok st := by
  unfold insertStatement at h
  rcases hrow : t.storeRow s with ⟨result, after⟩
  rw [hrow] at h
  cases result with
  | error e => cases h
  | ok row =>
    obtain ⟨hresult, rfl⟩ := Prod.mk.inj h
    cases hr : row.toRecord with
    | error e => simp [hr, Except.bind, Except.mapError] at hresult
    | ok r =>
      cases hv : Statement.ofRecord r with
      | error e => simp [hr, hv, Except.bind, Except.mapError] at hresult
      | ok st' =>
        simp only [hr, hv, Except.bind, Except.mapError, Except.ok.injEq] at hresult
        subst hresult
        exact ⟨row, r, rfl, hr, hv⟩

/-- A statement that was stored is found under its number, with the labels it was given. -/
theorem getStatement_insertStatement {t t' : Tables} (hkeyed : t.Keyed) {s : NewStatement}
    {st : Statement} (h : t.insertStatement s = (.ok st, t')) :
    ∃ r, t'.getStatement st.id = .ok (some r) ∧ Statement.ofRecord r = .ok st ∧
      r.firstEntity = s.first.label ∧ r.secondEntity = s.second.map Entity.label := by
  obtain ⟨row, r, hrow, hr, hv⟩ := insertStatement_ok h
  have hreads := StatementRow.toRecord_eq_ok.mp hr
  have hst : st.id = row.id := StatementRow.id_of_ofRecord hr hv
  refine ⟨r, ?_, hv, ?_, ?_⟩
  · rw [getStatement, hst, find?_storeRow hkeyed hrow]
    simp [hr, Except.map, Except.mapError]
  · rw [hreads.first, (storeRow_ok hrow).1]
    rfl
  · rw [hreads.second, (storeRow_ok hrow).1]
    rfl

theorem insertStatement_snd {t t' : Tables} {s : NewStatement} {st : Statement}
    (h : t.insertStatement s = (.ok st, t')) :
    ∃ added, t' = { t with statements := t.statements ++ added } := by
  obtain ⟨row, r, hrow, -⟩ := insertStatement_ok h
  obtain ⟨-, ⟨-, rfl⟩ | ⟨-, rfl⟩⟩ := storeRow_ok hrow
  · exact ⟨[], by simp⟩
  · exact ⟨[row], rfl⟩

theorem publicKeyFor_append {t : Tables} {signer : SignerId} {key : PublicKey}
    (h : t.publicKeyFor signer = some key) (added : List StatementRow) :
    publicKeyFor { t with statements := t.statements ++ added } signer = some key := by
  unfold publicKeyFor at *
  obtain ⟨row, hrow, hkey⟩ := Option.bind_eq_some_iff.mp h
  simp only [List.find?_append, hrow, Option.some_or, Option.bind_some]
  exact hkey

theorem getOpinions_perm (t : Tables) (id : StatementId) :
    (t.getOpinions id).Perm
      ((t.opinions.filter (·.statementId = id)).filterMap fun r => r.toOpinion.toOption) :=
  ((List.mergeSort_perm _ _).filter _).filterMap _

theorem mem_getOpinions {t : Tables} {id : StatementId} {o : Opinion} :
    o ∈ t.getOpinions id ↔ ∃ row ∈ t.opinions, row.statementId = id ∧ row.toOpinion = .ok o := by
  rw [(getOpinions_perm t id).mem_iff, List.mem_filterMap]
  simp only [List.mem_filter, decide_eq_true_eq, toOption_eq_some, and_assoc]

theorem getOpinions_append (t : Tables) {row : OpinionRow} {opinion : Opinion}
    (h : row.toOpinion = .ok opinion) :
    (getOpinions { t with opinions := t.opinions ++ [row] } row.statementId).Perm
      (opinion :: t.getOpinions row.statementId) := by
  refine (getOpinions_perm _ _).trans ?_
  have hrow : ([row].filter (·.statementId = row.statementId)).filterMap
      (fun r => r.toOpinion.toOption) = [opinion] := by
    simp [h, Except.toOption]
  rw [List.filter_append, List.filterMap_append, hrow]
  refine List.perm_append_comm.trans ?_
  exact (getOpinions_perm t _).symm.cons _

/-- The row under which the opinion is stored next. -/
def rowFor (t : Tables) (o : SignedOpinion) : OpinionRow :=
  .ofSigned ⟨freshId (t.opinions.map (·.id.val))⟩
    ⟨{ o.body with date := o.body.date.wholeSecond }, o.signature⟩

theorem toOpinion_rowFor (t : Tables) (o : SignedOpinion) :
    (t.rowFor o).toOpinion =
      .ok ⟨(t.rowFor o).id, { o.body with date := o.body.date.wholeSecond }, o.signature⟩ :=
  OpinionRow.toOpinion_ofSigned _ _

/-- What may come of storing an opinion: it is refused and nothing is changed, or its row is added
and it is answered as the row reads. -/
inductive OpinionOutcome (t : Tables) (o : SignedOpinion) :
    Except StoreError Opinion × Tables → Prop where
  | numberTaken (h : ∃ r ∈ t.opinions, r.id = (t.rowFor o).id) :
      OpinionOutcome t o (.error .keyTaken, t)
  | repeated (h : ∃ r ∈ t.opinions, r.key = (t.rowFor o).key) :
      OpinionOutcome t o
        (.error (.duplicateOpinion o.body.signerId o.body.statementId o.body.serial), t)
  | unknown (h : t.hasStatement o.body.statementId = false) :
      OpinionOutcome t o (.error (.statementNotFound o.body.statementId), t)
  | added (hid : ∀ r ∈ t.opinions, r.id ≠ (t.rowFor o).id)
      (hkey : ∀ r ∈ t.opinions, r.key ≠ (t.rowFor o).key)
      (hstatement : t.hasStatement o.body.statementId) :
      OpinionOutcome t o
        (.ok ⟨(t.rowFor o).id, { o.body with date := o.body.date.wholeSecond }, o.signature⟩,
          { t with opinions := t.opinions ++ [t.rowFor o] })

theorem insertOpinion_outcome (t : Tables) (o : SignedOpinion) :
    OpinionOutcome t o (t.insertOpinion o) := by
  unfold insertOpinion
  dsimp only
  split
  · rename_i hany
    obtain ⟨r, hr, hid⟩ := List.any_eq_true.mp hany
    exact .numberTaken ⟨r, hr, of_decide_eq_true hid⟩
  · rename_i hid
    split
    · rename_i hany
      obtain ⟨r, hr, hkey⟩ := List.any_eq_true.mp hany
      exact .repeated ⟨r, hr, of_decide_eq_true hkey⟩
    · rename_i hkey
      split
      · rename_i hstatement
        exact .unknown (by simpa using hstatement)
      · rename_i hstatement
        refine .added ?_ ?_ (by simpa using hstatement)
        · exact fun r hr heq => hid (List.any_eq_true.mpr ⟨r, hr, decide_eq_true heq⟩)
        · exact fun r hr heq => hkey (List.any_eq_true.mpr ⟨r, hr, decide_eq_true heq⟩)

/-- An opinion that was stored reads as it was signed, dated in whole seconds, and comes on top of
those that were listed on its statement. -/
theorem insertOpinion_ok {t t' : Tables} {o : SignedOpinion} {opinion : Opinion}
    (h : t.insertOpinion o = (.ok opinion, t')) :
    opinion.signed = ⟨{ o.body with date := o.body.date.wholeSecond }, o.signature⟩ ∧
      t'.statements = t.statements ∧
      (t'.getOpinions o.body.statementId).Perm (opinion :: t.getOpinions o.body.statementId) := by
  have hcases := h ▸ insertOpinion_outcome t o
  cases hcases with
  | added => exact ⟨rfl, rfl, getOpinions_append t (t.toOpinion_rowFor o)⟩

end Tables
end Reputation.Store
