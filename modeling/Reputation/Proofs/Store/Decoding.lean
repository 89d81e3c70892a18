import Reputation.Proofs.Resolution.Reading
import Reputation.Store.Access
/-!
What rows stand for. A row is decoded just if its columns are within the range of what they stand
for, and listings of rows read off those rows, each of them once, and leave the others out.
-/
namespace Reputation.Store

/-- No bound if the cell is null, else the one that its text denotes. -/
inductive Cell.Denotes : Cell → Option Bound → Prop where
  | null : Denotes .null none
  | text {s : String} {b : Bound} (h : Bound.parse s = .ok b) : Denotes (.text s) (some b)

theorem Cell.decodeBound_eq_ok {c : Cell} {bound : Option Bound} :
    c.decodeBound = .ok bound ↔ c.Denotes bound := by
  constructor
  · intro h
    cases c with
    | null =>
      cases h
      exact .null
    | text s =>
      change (Bound.parse s).map some = .ok bound at h
      cases hb : Bound.parse s with
      | error e =>
        rw [hb] at h
        cases h
      | ok b =>
        rw [hb] at h
        cases h
        exact .text hb
    | blob bytes => cases h
  · intro h
    cases h with
    | null => rfl
    | text hb =>
      change (Bound.parse _).map some = _
      rw [hb]
      rfl

def Cell.IsReadable (c : Cell) : Prop := ∃ bound, c.Denotes bound

theorem Cell.isReadable_iff {c : Cell} : c.IsReadable ↔ c.decodeBound.toOption.isSome := by
  simp only [IsReadable, Option.isSome_iff_exists, toOption_eq_some, decodeBound_eq_ok]

instance (c : Cell) : Decidable c.IsReadable := decidable_of_iff _ Cell.isReadable_iff.symm

theorem parse_error {s : String} {e : Error} (h : Bound.parse s = .error e) :
    ∃ fault, e = .invalidRecord fault := by
  unfold Bound.parse at h
  dsimp only at h
  split at h
  · cases h
    exact ⟨_, rfl⟩
  · split at h
    · cases h
      exact ⟨_, rfl⟩
    · split at h
      · cases h
      · cases h
        exact ⟨_, rfl⟩

theorem Cell.decodeBound_error {c : Cell} {e : Error} (h : c.decodeBound = .error e) :
    ∃ fault, e = .invalidRecord fault := by
  cases c with
  | null => cases h
  | text s =>
    change (Bound.parse s).map some = .error e at h
    cases hb : Bound.parse s with
    | ok b =>
      rw [hb] at h
      cases h
    | error e' =>
      rw [hb] at h
      cases h
      exact parse_error hb
  | blob bytes =>
    cases h
    exact ⟨_, rfl⟩

namespace StatementRow

variable {row : StatementRow} {r : StatementRecord}

theorem toRecord_error {e : Error} (h : row.toRecord = .error e) :
    ∃ fault, e = .invalidRecord fault := by
  unfold toRecord at h
  cases hlower : row.lower.decodeBound with
  | error e' =>
    simp only [hlower, bind, Except.bind, Except.error.injEq] at h
    exact h ▸ Cell.decodeBound_error hlower
  | ok lower =>
    cases hupper : row.upper.decodeBound with
    | error e' =>
      simp only [hlower, hupper, bind, Except.bind, Except.error.injEq] at h
      exact h ▸ Cell.decodeBound_error hupper
    | ok upper =>
      simp only [hlower, hupper, bind, Except.bind, pure, Except.pure] at h
      cases h

/-- The record has the columns of the row and the bounds that its cells stand for. -/
structure Reads (row : StatementRow) (r : StatementRecord) : Prop where
  id : r.id = row.id
  name : r.name = row.name
  first : r.firstEntity = row.first
  second : r.secondEntity = row.second
  lower : row.lower.Denotes r.lower
  upper : row.upper.Denotes r.upper

theorem toRecord_eq_ok : row.toRecord = .ok r ↔ row.Reads r := by
  constructor
  · intro h
    unfold toRecord at h
    cases hlower : row.lower.decodeBound with
    | error e => simp [hlower, bind, Except.bind] at h
    | ok lower =>
      cases hupper : row.upper.decodeBound with
      | error e => simp [hlower, hupper, bind, Except.bind] at h
      | ok upper =>
        simp only [hlower, hupper, bind, Except.bind, pure, Except.pure, Except.ok.injEq] at h
        subst h
        exact ⟨rfl, rfl, rfl, rfl, Cell.decodeBound_eq_ok.mp hlower,
          Cell.decodeBound_eq_ok.mp hupper⟩
  · rintro ⟨hid, hname, hfirst, hsecond, hlower, hupper⟩
    unfold toRecord
    rw [Cell.decodeBound_eq_ok.mpr hlower, Cell.decodeBound_eq_ok.mpr hupper, ← hid, ← hname,
      ← hfirst, ← hsecond]
    rfl

theorem id_of_ofRecord {s : Statement} (hr : row.toRecord = .ok r)
    (hs : Statement.ofRecord r = .ok s) : s.id = row.id :=
  (Statement.ofRecord_id hs).trans (toRecord_eq_ok.mp hr).id

def Decodes (row : StatementRow) : Prop := ∃ r, row.Reads r

theorem decodes_iff_reads (row : StatementRow) : row.Decodes ↔ ∃ r, row.Reads r := Iff.rfl

theorem decodes_iff : row.Decodes ↔ row.toRecord.toOption.isSome := by
  simp only [Decodes, Option.isSome_iff_exists, toOption_eq_some, toRecord_eq_ok]

instance (row : StatementRow) : Decidable row.Decodes :=
  decidable_of_iff _ decodes_iff.symm

/-- The row can be decoded, and its record is that of a valid statement. -/
def StandsFor (row : StatementRow) (s : Statement) : Prop :=
  ∃ r, row.Reads r ∧ Statement.ofRecord r = .ok s

theorem standsFor_iff {s : Statement} :
    row.StandsFor s ↔ row.toRecord.bind Statement.ofRecord = .ok s := by
  unfold StandsFor
  cases h : row.toRecord with
  | error e => simp [← toRecord_eq_ok, h, Except.bind]
  | ok r => simp [← toRecord_eq_ok, h, Except.bind]

def IsValid (row : StatementRow) : Prop := ∃ s, row.StandsFor s

theorem isValid_iff :
    row.IsValid ↔ (row.toRecord.bind Statement.ofRecord).toOption.isSome := by
  simp only [IsValid, standsFor_iff, Option.isSome_iff_exists, toOption_eq_some]

instance (row : StatementRow) : Decidable row.IsValid :=
  decidable_of_iff _ isValid_iff.symm

end StatementRow

namespace OpinionRow

variable {row : OpinionRow} {o o' : Opinion}

/-- The serial is one of 32 bits, the certainty a signed one, and the date lies within the years
that instants have. -/
def InRange (row : OpinionRow) : Prop :=
  (0 ≤ row.serial.toInt ∧ row.serial.toInt < 0x100000000) ∧
    (-0x80000000 ≤ row.certainty.toInt ∧ row.certainty.toInt < 0x80000000) ∧
    (Instant.minSeconds ≤ row.date.toInt ∧ row.date.toInt ≤ Instant.maxSeconds)

instance (row : OpinionRow) : Decidable row.InRange := inferInstanceAs (Decidable (_ ∧ _ ∧ _))

/-- The opinion has the columns of the row, its date being the start of a second. -/
structure Reads (row : OpinionRow) (o : Opinion) : Prop where
  id : o.id = row.id
  statementId : o.body.statementId = row.statementId
  signerId : o.body.signerId = row.signerId
  seconds : o.body.date.seconds = row.date.toInt
  nanos : o.body.date.nanos = 0
  valid : o.body.valid = true ↔ row.valid ≠ 0
  serial : (o.body.serial.toNat : Int) = row.serial.toInt
  certainty : o.body.certainty.toInt = row.certainty.toInt
  comment : o.body.comment = row.comment
  signature : o.signature = row.signature

theorem Reads.unique (h : row.Reads o) (h' : row.Reads o') : o = o' := by
  obtain ⟨id, ⟨statement, signer, ⟨seconds, nanos, _, _, _, _⟩, valid, serial, certainty, comment⟩,
    signature⟩ := o
  obtain ⟨id', ⟨statement', signer', ⟨seconds', nanos', _, _, _, _⟩, valid', serial', certainty',
    comment'⟩, signature'⟩ := o'
  have hid := h.id.trans h'.id.symm
  have hstatement := h.statementId.trans h'.statementId.symm
  have hsigner := h.signerId.trans h'.signerId.symm
  have hseconds := h.seconds.trans h'.seconds.symm
  have hnanos := h.nanos.trans h'.nanos.symm
  have hvalid := Bool.eq_iff_iff.mpr (h.valid.trans h'.valid.symm)
  have hserial := UInt32.toNat_inj.mp (Int.natCast_inj.mp (h.serial.trans h'.serial.symm))
  have hcertainty := Int32.toInt_inj.mp (h.certainty.trans h'.certainty.symm)
  have hcomment := h.comment.trans h'.comment.symm
  have hsignature := h.signature.trans h'.signature.symm
  dsimp only at *
  subst_vars
  rfl

theorem Reads.inRange (h : row.Reads o) : row.InRange := by
  have hserial := o.body.serial.toNat_lt
  have hge := o.body.certainty.le_toInt
  have hlt := o.body.certainty.toInt_lt
  refine ⟨?_, ?_, ?_⟩
  · rw [← h.serial]
    omega
  · rw [← h.certainty]
    omega
  · rw [← h.seconds]
    exact ⟨o.body.date.seconds_ge, o.body.date.seconds_le⟩

theorem ofSeconds?_eq_some {n : Int} (h : Instant.minSeconds ≤ n ∧ n ≤ Instant.maxSeconds) :
    ∃ t, Instant.ofSeconds? n = some t ∧ t.seconds = n ∧ t.nanos = 0 := by
  have hparts : Instant.minSeconds ≤ n ∧ n ≤ Instant.maxSeconds ∧ 0 < 2000000000 ∧
      (1000000000 ≤ 0 → n % 60 = 59) := ⟨h.1, h.2, by decide, by omega⟩
  rw [Instant.ofSeconds?, Instant.ofParts?, dif_pos hparts]
  exact ⟨_, rfl, rfl, rfl⟩

theorem toOpinion_of_inRange (h : row.InRange) : ∃ o, row.toOpinion = .ok o ∧ row.Reads o := by
  obtain ⟨hserial, hcertainty, hdate⟩ := h
  obtain ⟨date, hofSeconds, hseconds, hnanos⟩ := ofSeconds?_eq_some hdate
  have hserial_in : ¬ (row.serial.toInt < 0 ∨ 0x100000000 ≤ row.serial.toInt) := by omega
  have hcertainty_in : ¬ (row.certainty.toInt < Int32.minValue.toInt ∨
      Int32.maxValue.toInt < row.certainty.toInt) := by
    have hmin : Int32.minValue.toInt = -2147483648 := rfl
    have hmax : Int32.maxValue.toInt = 2147483647 := rfl
    omega
  simp only [toOpinion, hserial_in, hcertainty_in, if_false, hofSeconds]
  have hserial_eq : ((UInt32.ofNat row.serial.toInt.toNat).toNat : Int) = row.serial.toInt := by
    have hlt : row.serial.toInt.toNat < 2 ^ 32 := by omega
    rw [UInt32.toNat_ofNat_of_lt' hlt]
    exact Int.toNat_of_nonneg hserial.1
  have hcertainty_eq : (Int32.ofInt row.certainty.toInt).toInt = row.certainty.toInt :=
    Int32.toInt_ofInt_of_le hcertainty.1 hcertainty.2
  refine ⟨_, rfl, ?_⟩
  exact ⟨rfl, rfl, rfl, hseconds, hnanos, decide_eq_true_iff, hserial_eq, hcertainty_eq, rfl, rfl⟩

theorem inRange_of_toOpinion (h : row.toOpinion = .ok o) : row.InRange := by
  unfold toOpinion at h
  dsimp only at h
  split at h
  · cases h
  · rename_i hserial
    split at h
    · cases h
    · rename_i hcertainty
      have hmin : Int32.minValue.toInt = -2147483648 := rfl
      have hmax : Int32.maxValue.toInt = 2147483647 := rfl
      split at h
      · cases h
      · rename_i date hdate
        unfold Instant.ofSeconds? Instant.ofParts? at hdate
        split at hdate
        · rename_i hparts
          exact ⟨by omega, by omega, hparts.1, hparts.2.1⟩
        · cases hdate

theorem toOpinion_eq_ok : row.toOpinion = .ok o ↔ row.Reads o := by
  constructor
  · intro h
    obtain ⟨o', ho', hreads⟩ := toOpinion_of_inRange (inRange_of_toOpinion h)
    cases h.symm.trans ho'
    exact hreads
  · intro h
    obtain ⟨o', ho', hreads⟩ := toOpinion_of_inRange h.inRange
    rwa [h.unique hreads]

theorem inRange_iff : row.InRange ↔ ∃ o, row.Reads o := by
  constructor
  · intro h
    obtain ⟨o, -, ho⟩ := toOpinion_of_inRange h
    exact ⟨o, ho⟩
  · rintro ⟨o, ho⟩
    exact ho.inRange

end OpinionRow

/-- Each of the rows is read off once, in some order. -/
def ReadOff {ρ α : Type} (reads : ρ → α → Prop) (rows : List ρ) (listed : List α) : Prop :=
  ∃ ordered : List ρ, ordered.Perm rows ∧ List.Forall₂ reads ordered listed

section ReadOff

variable {ρ α : Type} {reads : ρ → α → Prop} {decode : ρ → Option α} {good : ρ → Prop}
  [DecidablePred good]

theorem forall₂_filterMap (hreads : ∀ row x, decode row = some x ↔ reads row x)
    (hgood : ∀ row, good row ↔ ∃ x, reads row x) (rows : List ρ) :
    List.Forall₂ reads (rows.filter good) (rows.filterMap decode) := by
  induction rows with
  | nil => exact .nil
  | cons row rows ih =>
    cases hrow : decode row with
    | none =>
      have hbad : ¬ good row := by
        rw [hgood]
        rintro ⟨x, hx⟩
        rw [(hreads row x).mpr hx] at hrow
        cases hrow
      simpa [hrow, hbad] using ih
    | some x =>
      have hx := (hreads row x).mp hrow
      have hrow_good : good row := (hgood row).mpr ⟨x, hx⟩
      simpa [hrow, hrow_good] using ⟨hx, ih⟩

/-- Of the rows that match, those that can be decoded are read off. -/
theorem readOff_filterMap (hreads : ∀ row x, decode row = some x ↔ reads row x)
    (hgood : ∀ row, good row ↔ ∃ x, reads row x) (matching : ρ → Bool) {ordered rows : List ρ}
    (h : ordered.Perm rows) : ReadOff reads (rows.filter fun row => matching row && good row)
      ((ordered.filter matching).filterMap decode) := by
  refine ⟨(ordered.filter matching).filter good, ?_, forall₂_filterMap hreads hgood _⟩
  simpa only [List.filter_filter, Bool.and_comm] using (h.filter matching).filter good

end ReadOff

theorem pairwise_mergeSort_key {ρ : Type} (key : ρ → Int64) (rows : List ρ) :
    (rows.mergeSort fun a b => key a ≤ key b).Pairwise (key · ≤ key ·) := by
  refine (List.pairwise_mergeSort ?_ ?_ rows).imp of_decide_eq_true
  · intro a b c hab hbc
    rw [decide_eq_true_eq] at *
    exact Int64.le_trans hab hbc
  · intro a b
    rw [Bool.or_eq_true, decide_eq_true_eq, decide_eq_true_eq]
    exact Int64.le_total (key a) (key b)

namespace Tables

theorem pairwise_statementsById (t : Tables) : t.statementsById.Pairwise (·.id ≤ ·.id) := by
  unfold statementsById
  exact pairwise_mergeSort_key (·.id.val) t.statements

theorem pairwise_opinionsById (t : Tables) : t.opinionsById.Pairwise (·.id.val ≤ ·.id.val) := by
  unfold opinionsById
  exact pairwise_mergeSort_key (·.id.val) t.opinions

theorem toOption_toRecord (row : StatementRow) (r : StatementRecord) :
    row.toRecord.toOption = some r ↔ row.Reads r :=
  toOption_eq_some.trans StatementRow.toRecord_eq_ok

theorem toOption_toOpinion (row : OpinionRow) (o : Opinion) :
    row.toOpinion.toOption = some o ↔ row.Reads o :=
  toOption_eq_some.trans OpinionRow.toOpinion_eq_ok

theorem readOff_scanStatements (t : Tables) :
    ReadOff StatementRow.Reads (t.statements.filter (·.Decodes)) t.scanStatements :=
  ⟨_, (List.mergeSort_perm _ _).filter _,
    forall₂_filterMap toOption_toRecord StatementRow.decodes_iff_reads _⟩

theorem readOff_findStatements (t : Tables) (name first : String) (second : Option String) :
    ReadOff StatementRow.Reads
        (t.statements.filter fun row =>
          (row.name = name && row.first = first && row.second = second) && row.Decodes)
        (t.findStatements name first second) ∧
      (t.findStatements name first second).Pairwise (·.id ≤ ·.id) := by
  have hperm : t.statementsById.Perm t.statements := List.mergeSort_perm _ _
  rw [findStatements, decodeAll]
  constructor
  · exact readOff_filterMap toOption_toRecord StatementRow.decodes_iff_reads _ hperm
  · rw [List.pairwise_filterMap]
    apply ((pairwise_statementsById t).filter _).imp
    intro row row' hle r hr r' hr'
    rw [((toOption_toRecord row r).mp hr).id, ((toOption_toRecord row' r').mp hr').id]
    exact hle

theorem readOff_getOpinions (t : Tables) (id : StatementId) :
    ReadOff OpinionRow.Reads
        (t.opinions.filter fun row => row.statementId = id && row.InRange) (t.getOpinions id) ∧
      (t.getOpinions id).Pairwise (·.id.val ≤ ·.id.val) := by
  have hperm : t.opinionsById.Perm t.opinions := List.mergeSort_perm _ _
  rw [getOpinions]
  constructor
  · exact readOff_filterMap toOption_toOpinion (fun _ => OpinionRow.inRange_iff) _ hperm
  · rw [List.pairwise_filterMap]
    apply ((pairwise_opinionsById t).filter _).imp
    intro row row' hle o ho o' ho'
    rw [((toOption_toOpinion row o).mp ho).id, ((toOption_toOpinion row' o').mp ho').id]
    exact hle

end Tables
end Reputation.Store
