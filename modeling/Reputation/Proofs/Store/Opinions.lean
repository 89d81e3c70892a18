import Reputation.Proofs.Store.BadRows
import Reputation.Proofs.Store.Reuse
/-!
Opinions in the tables. An opinion is refused where it repeats one or where its statement is not
stored, and nothing is changed then. Otherwise it is the last one that is listed on its statement,
just as it was signed but for the fraction of its second, which is not signed.
-/
namespace Reputation

theorem Instant.eq_of_seconds {a b : Instant} (h : a.seconds = b.seconds)
    (hnanos : a.nanos = b.nanos) : a = b := by
  cases a
  cases b
  obtain rfl : _ = _ := h
  obtain rfl : _ = _ := hnanos
  rfl

namespace Store

theorem OpinionRow.Reads.key_eq_iff {row row' : OpinionRow} {o o' : Opinion} (h : row.Reads o)
    (h' : row'.Reads o') :
    row.key = row'.key ↔ o.body.statementId = o'.body.statementId ∧
      o.body.signerId = o'.body.signerId ∧ o.body.date = o'.body.date ∧
      o.body.serial = o'.body.serial := by
  have hdate : row.date = row'.date ↔ o.body.date = o'.body.date := by
    rw [← Int64.toInt_inj, ← h.seconds, ← h'.seconds]
    exact ⟨fun hs => Instant.eq_of_seconds hs (h.nanos.trans h'.nanos.symm),
      congrArg Instant.seconds⟩
  have hserial : row.serial = row'.serial ↔ o.body.serial = o'.body.serial := by
    rw [← Int64.toInt_inj, ← h.serial, ← h'.serial, Int.natCast_inj, UInt32.toNat_inj]
  rw [h.statementId, h'.statementId, h.signerId, h'.signerId, ← hdate, ← hserial, key, key]
  simp only [Prod.mk.injEq]

namespace Tables

variable {t t' : Tables} {o : SignedOpinion}

theorem reads_rowFor (t : Tables) (o : SignedOpinion) :
    (t.rowFor o).Reads
      ⟨(t.rowFor o).id, { o.body with date := o.body.date.wholeSecond }, o.signature⟩ :=
  OpinionRow.toOpinion_eq_ok.mp (t.toOpinion_rowFor o)

/-- Besides the references, opinions have numbers of their own and all of them can be read. -/
structure Archived (t : Tables) : Prop where
  filed : t.Filed
  ids : (t.opinions.map (·.id)).Nodup
  reads : ∀ r ∈ t.opinions, ∃ p, r.Reads p

theorem archived_empty : empty.Archived where
  filed := filed_empty
  ids := List.nodup_nil
  reads := by simp [empty]

theorem Archived.write (h : t.Archived) (w : Write) : (t.write w).Archived := by
  refine ⟨h.filed.write w, ?_, ?_⟩
  · obtain hkept | ⟨o, -, hid, hadded⟩ := opinions_write t w
    · exact (hkept.map _).nodup h.ids
    · rw [hadded]
      exact nodup_map_snoc h.ids hid
  · intro r hr
    obtain hkept | ⟨o, -, -, hadded⟩ := opinions_write t w
    · exact h.reads r (hkept.subset hr)
    · rw [hadded] at hr
      rcases List.mem_append.mp hr with hr | hr
      · exact h.reads r hr
      · obtain rfl := List.mem_singleton.mp hr
        exact ⟨_, reads_rowFor t o⟩

theorem Archived.run (h : t.Archived) (ws : List Write) : (t.run ws).Archived := by
  induction ws generalizing t with
  | nil => exact h
  | cons w ws ih => exact ih (h.write w)

theorem lt_rowFor_id (hleft : ∀ r ∈ t.opinions, r.id.val ≠ Int64.maxValue) {r : OpinionRow}
    (hr : r ∈ t.opinions) : r.id.val < (t.rowFor o).id.val := by
  refine lt_freshId ?_ (List.mem_map_of_mem hr)
  intro htop
  obtain ⟨r', hr', hid⟩ := List.mem_map.mp htop
  exact hleft r' hr' hid

theorem toInt_id_write_le {k : Nat} (hk : k < 2 ^ 63 - 1)
    (h : ∀ r ∈ t.opinions, r.id.val.toInt ≤ k) (w : Write) :
    ∀ r ∈ (t.write w).opinions, r.id.val.toInt ≤ (k + 1 : Nat) := by
  have hold : ∀ r ∈ t.opinions, r.id.val.toInt ≤ (k + 1 : Nat) := by
    intro r hr
    have hle := h r hr
    omega
  obtain hkept | ⟨o, -, -, hadded⟩ := opinions_write t w
  · exact fun r hr => hold r (hkept.subset hr)
  · rw [hadded]
    intro r hr
    rcases List.mem_append.mp hr with hr | hr
    · exact hold r hr
    · obtain rfl := List.mem_singleton.mp hr
      refine toInt_freshId_le ?_ hk
      intro n hn
      obtain ⟨r', hr', rfl⟩ := List.mem_map.mp hn
      exact h r' hr'

theorem toInt_id_run_le {k : Nat} {ws : List Write} (hk : k + ws.length < 2 ^ 63)
    (h : ∀ r ∈ t.opinions, r.id.val.toInt ≤ k) :
    ∀ r ∈ (t.run ws).opinions, r.id.val.toInt ≤ (k + ws.length : Nat) := by
  induction ws generalizing t k with
  | nil => exact h
  | cons w ws ih =>
    rw [List.length_cons] at hk ⊢
    have hrun := ih (by omega) (toInt_id_write_le (by omega) h w)
    rwa [Nat.add_right_comm] at hrun

/-- The numbers do not run out in fewer writes than there are numbers. -/
theorem numbers_left {ws : List Write} (h : ws.length < 2 ^ 63 - 1) :
    ∀ r ∈ (empty.run ws).opinions, r.id.val ≠ Int64.maxValue := by
  intro r hr htop
  have hle : r.id.val.toInt ≤ (0 + ws.length : Nat) :=
    toInt_id_run_le (by omega) (by simp [empty]) r hr
  have hmax : Int64.maxValue.toInt = 9223372036854775807 := rfl
  rw [htop] at hle
  omega

/-- An opinion of the same signer is listed on the statement with the same second and serial. -/
def Repeats (t : Tables) (o : SignedOpinion) : Prop :=
  ∃ p ∈ t.getOpinions o.body.statementId, p.body.signerId = o.body.signerId ∧
    p.body.date = o.body.date.wholeSecond ∧ p.body.serial = o.body.serial

instance (t : Tables) (o : SignedOpinion) : Decidable (t.Repeats o) :=
  inferInstanceAs (Decidable (∃ p ∈ t.getOpinions o.body.statementId, _))

theorem Archived.repeats_iff (h : t.Archived) :
    t.Repeats o ↔ ∃ r ∈ t.opinions, r.key = (t.rowFor o).key := by
  constructor
  · rintro ⟨p, hp, hsame⟩
    obtain ⟨r, hr, hid, hread⟩ := mem_getOpinions.mp hp
    have hreads : r.Reads p := OpinionRow.toOpinion_eq_ok.mp hread
    exact ⟨r, hr, (hreads.key_eq_iff (reads_rowFor t o)).mpr ⟨hreads.statementId.trans hid, hsame⟩⟩
  · rintro ⟨r, hr, hkey⟩
    obtain ⟨p, hreads⟩ := h.reads r hr
    obtain ⟨hid, hsame⟩ := (hreads.key_eq_iff (reads_rowFor t o)).mp hkey
    exact ⟨p, mem_getOpinions.mpr
      ⟨r, hr, hreads.statementId.symm.trans hid, OpinionRow.toOpinion_eq_ok.mpr hreads⟩, hsame⟩

theorem getOpinions_added_other (h : t.Archived) {row : OpinionRow} {id : StatementId}
    (hid : id ≠ row.statementId) :
    getOpinions { t with opinions := t.opinions ++ [row] } id = t.getOpinions id := by
  refine getOpinions_eq_of_perm h.ids ((getOpinions_perm _ id).trans ?_)
  have hnone : [row].filter (·.statementId = id) = [] := by simpa using Ne.symm hid
  rw [List.filter_append, hnone, List.append_nil]
  exact (getOpinions_perm t id).symm

theorem getOpinions_added (h : t.Archived) {row : OpinionRow} {opinion : Opinion}
    (hread : row.toOpinion = .ok opinion) (hlast : ∀ r ∈ t.opinions, r.id.val < row.id.val) :
    getOpinions { t with opinions := t.opinions ++ [row] } row.statementId =
      t.getOpinions row.statementId ++ [opinion] := by
  have hids : ((t.opinions ++ [row]).map (·.id)).Nodup := by
    refine nodup_map_snoc h.ids fun r hr heq => ?_
    exact Int64.lt_irrefl (heq ▸ hlast r hr)
  have hsorted : (t.getOpinions row.statementId ++ [opinion]).Pairwise (·.id.val ≤ ·.id.val) := by
    refine List.pairwise_append.mpr
      ⟨(readOff_getOpinions t _).2, List.pairwise_singleton _ _, ?_⟩
    intro p hp q hq
    obtain rfl := List.mem_singleton.mp hq
    obtain ⟨r, hr, -, hp⟩ := mem_getOpinions.mp hp
    rw [(OpinionRow.toOpinion_eq_ok.mp hp).id, (OpinionRow.toOpinion_eq_ok.mp hread).id]
    exact Int64.le_of_lt (hlast r hr)
  refine (eq_getOpinions_of_perm hids hsorted ?_).symm
  exact (List.perm_append_singleton _ _).trans (getOpinions_append t hread).symm

/-- The opinion is now the last one on its statement, with the signature and the signed bytes that
it had, and nothing else has changed. -/
structure Appends (t t' : Tables) (o : SignedOpinion) (stored : Opinion) : Prop where
  signed : stored.signed = ⟨{ o.body with date := o.body.date.wholeSecond }, o.signature⟩
  payload : stored.body.payload = o.body.payload
  listed : t'.getOpinions o.body.statementId = t.getOpinions o.body.statementId ++ [stored]
  others : ∀ id, id ≠ o.body.statementId → t'.getOpinions id = t.getOpinions id
  statements : t'.statements = t.statements
  hints : t'.hints = t.hints

/-- Whatever was written before, an opinion that repeats another one or whose statement is not
stored is refused for that very reason and changes nothing, and any other one is appended, unless
the numbers have run out. -/
theorem insertOpinion_refused_or_appended {ws : List Write}
    (hleft : ∀ r ∈ (empty.run ws).opinions, r.id.val ≠ Int64.maxValue) (o : SignedOpinion) :
    (((empty.run ws).insertOpinion o).1 =
        .error (.duplicateOpinion o.body.signerId o.body.statementId o.body.serial) ↔
      (empty.run ws).Repeats o) ∧
    (((empty.run ws).insertOpinion o).1 = .error (.statementNotFound o.body.statementId) ↔
      ∀ r ∈ (empty.run ws).statements, r.id ≠ o.body.statementId) ∧
    ((∃ e, (empty.run ws).insertOpinion o = (.error e, empty.run ws) ∧
        (e = .duplicateOpinion o.body.signerId o.body.statementId o.body.serial ∨
          e = .statementNotFound o.body.statementId)) ∨
      ∃ stored t', (empty.run ws).insertOpinion o = (.ok stored, t') ∧
        Appends (empty.run ws) t' o stored) := by
  have h := archived_empty.run ws
  generalize empty.run ws = t at h hleft ⊢
  have hstored : ∀ r ∈ t.opinions, r.key = (t.rowFor o).key →
      t.hasStatement o.body.statementId := by
    intro r hr hkey
    have hid : r.statementId = o.body.statementId := congrArg Prod.fst hkey
    exact hid ▸ h.filed.opinions_refer r hr
  have hcases := insertOpinion_outcome t o
  rw [h.repeats_iff, ← hasStatement_eq_false]
  generalize t.insertOpinion o = after at hcases ⊢
  cases hcases with
  | numberTaken htaken =>
    obtain ⟨r, hr, hid⟩ := htaken
    exact absurd (hid ▸ lt_rowFor_id hleft hr) Int64.lt_irrefl
  | repeated hrepeated =>
    obtain ⟨r, hr, hkey⟩ := hrepeated
    refine ⟨iff_of_true rfl ⟨r, hr, hkey⟩, iff_of_false ?_ ?_, .inl ⟨_, rfl, .inl rfl⟩⟩
    · intro heq
      cases heq
    · rw [hstored r hr hkey]
      simp
  | unknown hunknown =>
    refine ⟨iff_of_false ?_ ?_, iff_of_true rfl hunknown, .inl ⟨_, rfl, .inr rfl⟩⟩
    · intro heq
      cases heq
    · rintro ⟨r, hr, hkey⟩
      rw [hstored r hr hkey] at hunknown
      cases hunknown
  | added hid hkey hstatement =>
    refine ⟨iff_of_false ?_ ?_, iff_of_false ?_ ?_, .inr ⟨_, _, rfl, ?_⟩⟩
    · intro heq
      cases heq
    · rintro ⟨r, hr, heq⟩
      exact hkey r hr heq
    · intro heq
      cases heq
    · rw [hstatement]
      simp
    · exact {
        signed := rfl
        payload := rfl
        listed := getOpinions_added h (t.toOpinion_rowFor o) fun r hr => lt_rowFor_id hleft hr
        others := fun id hid => getOpinions_added_other h hid
        statements := rfl
        hints := rfl }

/-- The last second of a minute, and half a second of the leap second after it. -/
def specimenLeap : SignedOpinion :=
  ⟨{ specimenBody with
      date := ⟨59, 1500000000, by decide, by decide, by decide, by decide⟩, serial := 2 }, [7]⟩

theorem insertOpinion_refused_or_appended_specimen :
    ((empty.run specimenWrites).insertOpinion ⟨{ specimenBody with certainty := -9 }, [7]⟩).1 =
        .error (.duplicateOpinion ⟨1⟩ ⟨2⟩ 1) ∧
      ((empty.run specimenWrites).insertOpinion ⟨{ specimenBody with statementId := ⟨1⟩ }, [7]⟩).1 =
        .error (.statementNotFound ⟨1⟩) ∧
      ∃ stored t', (empty.run specimenWrites).insertOpinion specimenLeap = (.ok stored, t') ∧
        Appends (empty.run specimenWrites) t' specimenLeap stored := by
  have hleft := @numbers_left specimenWrites (by decide)
  refine ⟨?_, ?_, ?_⟩
  · refine (insertOpinion_refused_or_appended hleft _).1.mpr ?_
    decide +kernel
  · refine (insertOpinion_refused_or_appended hleft _).2.1.mpr ?_
    decide +kernel
  · obtain ⟨hrepeats, hunknown, ⟨e, hrefused, hcause⟩ | happended⟩ :=
      insertOpinion_refused_or_appended hleft specimenLeap
    · exfalso
      rcases hcause with rfl | rfl
      · have hnew : ¬ (empty.run specimenWrites).Repeats specimenLeap := by decide +kernel
        exact hnew (hrepeats.mp (congrArg Prod.fst hrefused))
      · have hstored : ¬ ∀ r ∈ (empty.run specimenWrites).statements,
            r.id ≠ specimenLeap.body.statementId := by decide +kernel
        exact hstored (hunknown.mp (congrArg Prod.fst hrefused))
    · exact happended

end Tables
end Store
end Reputation
