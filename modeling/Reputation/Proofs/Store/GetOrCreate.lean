import Reputation.Proofs.Store.Runs
import Mathlib.Data.List.Perm.Subperm
/-!
Storing a statement gets its row or creates it. In the tables that runs lead to, a key belongs to
one statement only, so the row that has a statement's key is its own: it is found again under the
same number, and a look-up by name and labels gives it alone.
-/
namespace Reputation

/-- The statement that a new one becomes under a number. -/
def NewStatement.statement (s : NewStatement) (id : StatementId) : Statement :=
  ⟨id, s.name, s.first.label, s.second.map Entity.label, s.range?⟩

theorem NewStatement.Obtained.eq_iff {s s' : NewStatement} (hs : s.Obtained) (hs' : s'.Obtained) :
    s = s' ↔ s.name = s'.name ∧ s.first.label = s'.first.label ∧
      s.second.map Entity.label = s'.second.map Entity.label := by
  constructor
  · rintro rfl
    exact ⟨rfl, rfl, rfl⟩
  · rintro ⟨hname, hfirst, hsecond⟩
    obtain ⟨name, first, second⟩ := s
    obtain ⟨name', first', second'⟩ := s'
    obtain rfl : name = name' := hname
    obtain rfl : first = first' := (hs.first.label_inj hs'.first).mp hfirst
    cases second with
    | none =>
      cases second' with
      | none => rfl
      | some e' => cases hsecond
    | some e =>
      cases second' with
      | none => cases hsecond
      | some e' =>
        have hlabel : e.label = e'.label := Option.some.inj hsecond
        rw [((hs.second e rfl).label_inj (hs'.second e' rfl)).mp hlabel]

theorem NewStatement.Obtained.second_ne_empty {s : NewStatement} (hs : s.Obtained) :
    s.second.map Entity.label ≠ some "" := by
  intro hempty
  obtain ⟨e, he, hlabel⟩ := Option.map_eq_some_iff.mp hempty
  exact (hs.second e he).label_ne_empty hlabel

theorem NewStatement.Obtained.ofRecord_statement {s : NewStatement} (hs : s.Obtained)
    (hname : s.name ≠ "") (id : StatementId) :
    Statement.ofRecord (s.statement id).toRecord = .ok (s.statement id) := by
  have hfirst : s.first.label ≠ "" := hs.first.label_ne_empty
  have hrange : AddressRange.ofColumns (s.range?.map (·.min)) (s.range?.map (·.max)) =
      .ok s.range? := by
    cases hq : s.range? with
    | none => rfl
    | some q =>
      have horder : q.min ≤ q.max := Entity.range?_inOrder hq
      simp [AddressRange.ofColumns, AddressRange.ofBounds, horder, Except.map]
  simp [Statement.ofRecord, Statement.toRecord, statement, hname, hfirst, hs.second_ne_empty, hrange]

namespace Store

/-! ## Free numbers -/

instance lawfulOrderMaxInt64 : Std.LawfulOrderMax Int64 where
  max_eq_or a b := by
    have hmax : max a b = if a ≤ b then b else a := rfl
    rw [hmax]
    by_cases h : a ≤ b
    · simp [h]
    · simp [h]
  max_le_iff a b c := by
    have hmax : max a b = if a ≤ b then b else a := rfl
    rw [hmax]
    simp only [Int64.le_iff_toInt_le]
    by_cases h : a.toInt ≤ b.toInt
    · simp only [h, if_true]
      omega
    · simp only [h, if_false]
      omega

theorem toInt_succ {n : Int64} (h : n < Int64.maxValue) : (n + 1).toInt = n.toInt + 1 := by
  have hlt := Int64.lt_iff_toInt_lt.mp h
  have hge := n.le_toInt
  have htop : Int64.maxValue.toInt = 9223372036854775807 := rfl
  rw [Int64.toInt_add, Int.bmod_eq_of_le (by simp; omega) (by simp; omega)]
  rfl

theorem lt_succ_of_lt_maxValue {n : Int64} (h : n < Int64.maxValue) : n < n + 1 := by
  rw [Int64.lt_iff_toInt_lt, toInt_succ h]
  omega

theorem succ_notMem_of_max? {used : List Int64} {greatest : Int64}
    (hmax : used.max? = some greatest) (h : greatest < Int64.maxValue) : greatest + 1 ∉ used := by
  intro hmem
  have hle := (List.max?_eq_some_iff.mp hmax).2 _ hmem
  exact Int64.not_lt.mpr hle (lt_succ_of_lt_maxValue h)

theorem lt_freshId {used : List Int64} (htop : Int64.maxValue ∉ used) {n : Int64} (hn : n ∈ used) :
    n < freshId used := by
  unfold freshId
  cases hmax : used.max? with
  | none => simp [List.max?_eq_none_iff.mp hmax] at hn
  | some greatest =>
    obtain ⟨hmem, hle⟩ := List.max?_eq_some_iff.mp hmax
    have hlt : greatest < Int64.maxValue := by
      refine Int64.lt_of_le_of_ne greatest.le_maxValue ?_
      rintro rfl
      exact htop hmem
    simp only [hlt, if_true]
    exact Int64.lt_of_le_of_lt (hle n hn) (lt_succ_of_lt_maxValue hlt)

theorem toInt_freshId_le {used : List Int64} {k : Nat} (h : ∀ n ∈ used, n.toInt ≤ k)
    (hk : k < 2 ^ 63 - 1) : (freshId used).toInt ≤ k + 1 := by
  unfold freshId
  cases hmax : used.max? with
  | none =>
    have hone : (1 : Int64).toInt = 1 := rfl
    dsimp only
    omega
  | some greatest =>
    have hle := h greatest (List.max?_eq_some_iff.mp hmax).1
    have htop : Int64.maxValue.toInt = 9223372036854775807 := rfl
    have hlt : greatest < Int64.maxValue := Int64.lt_iff_toInt_lt.mpr (by omega)
    simp only [hlt, if_true, toInt_succ hlt]
    omega

theorem exists_notMem_used {used : List Int64} (h : used.length < 2 ^ 63 - 1) :
    ∃ n ∈ (List.range (used.length + 1)).map fun n => Int64.ofNat (n + 1), n ∉ used := by
  by_contra hall
  -- Otherwise these numbers, all different, would be among fewer than they are.
  have hsubset : ((List.range (used.length + 1)).map fun n => Int64.ofNat (n + 1)) ⊆ used := by
    intro n hn
    by_contra hfree
    exact hall ⟨n, hn, hfree⟩
  have hnodup : ((List.range (used.length + 1)).map fun n => Int64.ofNat (n + 1)).Nodup := by
    refine List.nodup_range.map_on ?_
    intro m hm n hn heq
    have hm := List.mem_range.mp hm
    have hn := List.mem_range.mp hn
    have hvalue := congrArg Int64.toInt heq
    rw [Int64.toInt_ofNat_of_lt (by omega), Int64.toInt_ofNat_of_lt (by omega)] at hvalue
    omega
  have hlength := (List.subperm_of_subset hnodup hsubset).length_le
  simp at hlength

theorem freshId_notMem {used : List Int64} (h : used.length < 2 ^ 63 - 1) :
    freshId used ∉ used := by
  unfold freshId
  cases hmax : used.max? with
  | none => simp [List.max?_eq_none_iff.mp hmax]
  | some greatest =>
    dsimp only
    split
    · rename_i hlt
      exact succ_notMem_of_max? hmax hlt
    · obtain ⟨n, hn, hfree⟩ := exists_notMem_used h
      cases hfind : List.find? (· ∉ used)
          ((List.range (used.length + 1)).map fun n => Int64.ofNat (n + 1)) with
      | none => exact absurd (List.find?_eq_none.mp hfind n hn) (by simpa using hfree)
      | some m => simpa using List.find?_some hfind

/-! ## Rows of statements -/

theorem Cell.decodeBound_ofBound (b : Option Bound) : (ofBound b).decodeBound = .ok b := by
  cases b with
  | none => rfl
  | some b => simp [ofBound, decodeBound, toColumn, Column.decodeBound, b.parse_text, Except.map]

namespace StatementRow

variable {s s' : NewStatement}

theorem toRecord_ofNew (id : StatementId) (s : NewStatement) :
    (ofNew id s).toRecord = .ok (s.statement id).toRecord := by
  simp only [toRecord, ofNew, Cell.decodeBound_ofBound]
  rfl

/-- The row has the name and the labels of the statement. -/
def IsOf (r : StatementRow) (s : NewStatement) : Prop :=
  r.name = s.name ∧ r.first = s.first.label ∧ r.second = s.second.map Entity.label

theorem isOf_ofNew_iff (id : StatementId) (hs : s.Obtained) (hs' : s'.Obtained) :
    (ofNew id s).IsOf s' ↔ s = s' :=
  (hs.eq_iff hs').symm

theorem eq_of_getD_eq {a b : Option String} (ha : a ≠ some "") (hb : b ≠ some "")
    (h : a.getD "" = b.getD "") : a = b := by
  cases a with
  | none =>
    cases b with
    | none => rfl
    | some label => exact absurd (congrArg some h.symm) hb
  | some label =>
    cases b with
    | none => exact absurd (congrArg some h) ha
    | some label' => exact congrArg some h

/-- No label is empty, so that none is mistaken for a missing one where keys are compared. -/
theorem key_ofNew_inj (id id' : StatementId) (hs : s.Obtained) (hs' : s'.Obtained) :
    (ofNew id s).key = (ofNew id' s').key ↔ s = s' := by
  constructor
  · intro hkey
    simp only [key, ofNew, Prod.mk.injEq] at hkey
    obtain ⟨hname, hfirst, hsecond, -, -⟩ := hkey
    exact (hs.eq_iff hs').mpr
      ⟨hname, hfirst, eq_of_getD_eq hs.second_ne_empty hs'.second_ne_empty hsecond⟩
  · rintro rfl
    rfl

end StatementRow

namespace Tables

variable {t t' : Tables} {s s' : NewStatement}

theorem Sound.eq_ofNew (h : t.Sound) (hs : s.Obtained) {r : StatementRow} (hr : r ∈ t.statements)
    (hof : r.IsOf s) : r = .ofNew r.id s := by
  obtain ⟨s', hs', heq⟩ := h.origin r hr
  rw [heq] at hof
  rwa [(StatementRow.isOf_ofNew_iff r.id hs' hs).mp hof] at heq

theorem Sound.id_eq_iff (h : t.Sound) (hs : s.Obtained) (hs' : s'.Obtained) {id id' : StatementId}
    (hr : .ofNew id s ∈ t.statements) (hr' : .ofNew id' s' ∈ t.statements) :
    id' = id ↔ s' = s := by
  constructor
  · rintro rfl
    have hrow := List.inj_on_of_nodup_map h.keyed hr' hr rfl
    exact (StatementRow.key_ofNew_inj id' id' hs' hs).mp (congrArg StatementRow.key hrow)
  · rintro rfl
    have hrow := List.inj_on_of_nodup_map h.statement_keys hr' hr (StatementRow.key_ofNew id' id s')
    exact congrArg StatementRow.id hrow

/-! ## One call -/

theorem insertStatement_of_storeRow (hs : s.Obtained) (hname : s.name ≠ "") {id : StatementId}
    (h : t.storeRow s = (.ok (.ofNew id s), t')) :
    t.insertStatement s = (.ok (s.statement id), t') := by
  simp [insertStatement, h, StatementRow.toRecord_ofNew, Except.bind,
    hs.ofRecord_statement hname, Except.mapError]

theorem storeRow_found {id : StatementId} (hr : .ofNew id s ∈ t.statements)
    (hunique : ∀ r ∈ t.statements, r.key = (StatementRow.ofNew id s).key → r = .ofNew id s) :
    t.storeRow s = (.ok (.ofNew id s), t) := by
  have hkey : t.statements.any (·.key = (StatementRow.ofNew ⟨0⟩ s).key) = true :=
    List.any_eq_true.mpr ⟨_, hr, by simpa using StatementRow.key_ofNew id ⟨0⟩ s⟩
  have hcolumns : (t.statements.find? fun r => { r with id := ⟨0⟩ } = StatementRow.ofNew ⟨0⟩ s) =
      some (.ofNew id s) := by
    cases hfind : t.statements.find? fun r => { r with id := ⟨0⟩ } = StatementRow.ofNew ⟨0⟩ s with
    | none =>
      have hother := List.find?_eq_none.mp hfind _ hr
      simp [StatementRow.ofNew] at hother
    | some r =>
      have hsame : { r with id := ⟨0⟩ } = StatementRow.ofNew ⟨0⟩ s := by
        simpa using List.find?_some hfind
      have hkey' : r.key = (StatementRow.ofNew id s).key := by
        change ({ r with id := ⟨0⟩ } : StatementRow).key = _
        rw [hsame]
        exact StatementRow.key_ofNew ⟨0⟩ id s
      rw [hunique r (List.mem_of_find?_eq_some hfind) hkey']
  simp only [storeRow, hkey, hcolumns, if_true]

theorem insertStatement_found (hkeys : (t.statements.map (·.key)).Nodup) (hs : s.Obtained)
    (hname : s.name ≠ "") {id : StatementId} (hr : .ofNew id s ∈ t.statements) :
    t.insertStatement s = (.ok (s.statement id), t) := by
  refine insertStatement_of_storeRow hs hname (storeRow_found hr ?_)
  intro r hr' hkey
  exact List.inj_on_of_nodup_map hkeys hr' hr hkey

/-- A row that has the key of the statement but is not its row stands in the way. -/
theorem insertStatement_taken {r : StatementRow} (hr : r ∈ t.statements)
    (hkey : r.key = (StatementRow.ofNew ⟨0⟩ s).key)
    (hother : ∀ r ∈ t.statements, r ≠ .ofNew r.id s) :
    t.insertStatement s = (.error .keyTaken, t) := by
  have htaken : t.statements.any (·.key = (StatementRow.ofNew ⟨0⟩ s).key) = true :=
    List.any_eq_true.mpr ⟨r, hr, by simpa using hkey⟩
  have hnone : (t.statements.find? fun r => { r with id := ⟨0⟩ } = StatementRow.ofNew ⟨0⟩ s) =
      none := by
    rw [List.find?_eq_none]
    intro r hr heq
    have hcolumns : { r with id := ⟨0⟩ } = StatementRow.ofNew ⟨0⟩ s := of_decide_eq_true heq
    exact hother r hr (congrArg (fun row : StatementRow => { row with id := r.id }) hcolumns)
  simp only [insertStatement, storeRow, htaken, hnone, if_true]

theorem insertStatement_added (hs : s.Obtained) (hname : s.name ≠ "")
    (hnew : ∀ r ∈ t.statements, r.key ≠ (StatementRow.ofNew ⟨0⟩ s).key)
    (hroom : t.statements.length < 2 ^ 63 - 1) :
    ∃ id, t.hasStatement id = false ∧ t.insertStatement s =
      (.ok (s.statement id), { t with statements := t.statements ++ [.ofNew id s] }) := by
  have hkey : t.statements.any (·.key = (StatementRow.ofNew ⟨0⟩ s).key) = false := by
    rw [List.any_eq_false]
    intro r hr
    simpa using hnew r hr
  let id : StatementId := ⟨freshId (t.statements.map (·.id.val))⟩
  have hfree : t.hasStatement id = false := by
    rw [hasStatement_eq_false]
    intro r hr heq
    have hfresh : freshId (t.statements.map (·.id.val)) ∉ t.statements.map (·.id.val) :=
      freshId_notMem (by simpa using hroom)
    exact hfresh (List.mem_map.mpr ⟨r, hr, congrArg StatementId.val heq⟩)
  refine ⟨id, hfree, insertStatement_of_storeRow hs hname ?_⟩
  have hid : (StatementRow.ofNew id s).id = id := rfl
  simp only [storeRow, hkey, Bool.false_eq_true, if_false]
  rw [hid, hfree]
  simp [id]

theorem Sound.isOf_of_key_eq (h : t.Sound) (hs : s.Obtained) {r : StatementRow}
    (hr : r ∈ t.statements) (hkey : r.key = (StatementRow.ofNew ⟨0⟩ s).key) : r.IsOf s := by
  obtain ⟨s', hs', heq⟩ := h.origin r hr
  rw [heq] at hkey ⊢
  obtain rfl := (StatementRow.key_ofNew_inj r.id ⟨0⟩ hs' hs).mp hkey
  exact ⟨rfl, rfl, rfl⟩

/-- The statement has a row, or there is a number left for one: numbers of rows are positive and have
63 bits. -/
def HasRoom (t : Tables) (s : NewStatement) : Prop :=
  (∃ r ∈ t.statements, r.IsOf s) ∨ t.statements.length < 2 ^ 63 - 1

/-- Storing a statement finds its row and changes nothing, or adds the row it lacked. -/
theorem Sound.insertStatement_spec (h : t.Sound) (hs : s.Obtained) (hname : s.name ≠ "")
    (hroom : t.HasRoom s) :
    ∃ id t', t.insertStatement s = (.ok (s.statement id), t') ∧ t'.Sound ∧
      .ofNew id s ∈ t'.statements ∧
      ((.ofNew id s ∈ t.statements ∧ t' = t) ∨ (∀ r ∈ t.statements, ¬ r.IsOf s) ∧
        t.hasStatement id = false ∧
        t' = { t with statements := t.statements ++ [.ofNew id s] }) := by
  by_cases hstored : ∃ r ∈ t.statements, r.IsOf s
  · obtain ⟨r, hr, hof⟩ := hstored
    have hrow : .ofNew r.id s ∈ t.statements := h.eq_ofNew hs hr hof ▸ hr
    exact ⟨r.id, t, insertStatement_found h.statement_keys hs hname hrow, h, hrow, .inl ⟨hrow, rfl⟩⟩
  · have hnew : ∀ r ∈ t.statements, ¬ r.IsOf s := fun r hr hof => hstored ⟨r, hr, hof⟩
    have hkeys : ∀ r ∈ t.statements, r.key ≠ (StatementRow.ofNew ⟨0⟩ s).key :=
      fun r hr hkey => hnew r hr (h.isOf_of_key_eq hs hr hkey)
    obtain ⟨id, hfree, hinsert⟩ :=
      insertStatement_added hs hname hkeys (hroom.resolve_left hstored)
    have hsound := h.insertStatement hs
    rw [hinsert] at hsound
    exact ⟨id, _, hinsert, hsound, by simp, .inr ⟨hnew, hfree, rfl⟩⟩

theorem Sound.findStatements_eq (h : t.Sound) (hs : s.Obtained) {id : StatementId}
    (hr : .ofNew id s ∈ t.statements) :
    t.findStatements s.name s.first.label (s.second.map Entity.label) =
      [(s.statement id).toRecord] := by
  have hperm : t.statementsById.Perm t.statements := List.mergeSort_perm _ _
  have hnodup : t.statementsById.Nodup := hperm.nodup_iff.mpr (List.Nodup.of_map _ h.keyed)
  -- The look-up asks for less than the key, but what it leaves out follows from the labels.
  have honly : ∀ r ∈ t.statementsById, (r.name = s.name && r.first = s.first.label &&
      r.second = s.second.map Entity.label) = (r == .ofNew id s) := by
    intro r hmem
    have hmem := hperm.mem_iff.mp hmem
    rw [Bool.eq_iff_iff, beq_iff_eq]
    constructor
    · intro hof
      have hrow := h.eq_ofNew hs hmem (by simpa [StatementRow.IsOf, and_assoc] using hof)
      have hid : r.id = id := (h.id_eq_iff hs hs hr (hrow ▸ hmem)).mpr rfl
      rw [hrow, hid]
    · rintro rfl
      simp [StatementRow.ofNew]
  rw [findStatements, List.filter_congr honly, List.filter_beq,
    List.count_eq_one_of_mem hnodup (hperm.mem_iff.mpr hr)]
  simp [decodeAll, StatementRow.toRecord_ofNew, Except.toOption]

/-! ## Calls in a run -/

theorem mem_write {r : StatementRow} (hr : r ∈ t.statements) {w : Write}
    (hw : w ≠ .purge r.id) : r ∈ (t.write w).statements := by
  cases w with
  | statement s =>
    change r ∈ (t.insertStatement s).2.statements
    rw [insertStatement_tables]
    obtain hsame | ⟨row, -, -, -, hadded⟩ := storeRow_tables t s
    · rwa [hsame]
    · rw [hadded]
      exact List.mem_append_left _ hr
  | opinion o =>
    change r ∈ (t.insertOpinion o).2.statements
    obtain hsame | ⟨row, -, -, hadded⟩ := insertOpinion_tables t o
    · rwa [hsame]
    · rwa [hadded]
  | purge id =>
    refine List.mem_filter.mpr ⟨hr, ?_⟩
    have hne : r.id ≠ id := fun heq => hw (heq ▸ rfl)
    simpa using hne
  | hints weights usedAt =>
    change r ∈ (t.recordHints weights usedAt).statements
    obtain ⟨hints, heq, -⟩ := recordHints_tables t weights usedAt
    rwa [heq]

theorem mem_run {r : StatementRow} (hr : r ∈ t.statements) {ws : List Write}
    (hws : .purge r.id ∉ ws) : r ∈ (t.run ws).statements := by
  induction ws generalizing t with
  | nil => exact hr
  | cons w ws ih =>
    refine ih (mem_write hr ?_) fun hmem => hws (List.mem_cons_of_mem _ hmem)
    rintro rfl
    exact hws List.mem_cons_self

/-- In whatever state a run has left the store, storing a statement answers with it, under the
number of its row if it has one and else under a number that was free. Until something is removed,
another call has the same number exactly for the same statement. -/
theorem insertStatement_getOrCreate {ws : List Write} (hws : ∀ w ∈ ws, w.Obtained)
    (hs : s.Obtained) (hname : s.name ≠ "") (hroom : (empty.run ws).HasRoom s) :
    ∃ id t', (empty.run ws).insertStatement s = (.ok (s.statement id), t') ∧
      (∀ r ∈ (empty.run ws).statements, r.IsOf s → r.id = id ∧ t' = empty.run ws) ∧
      ((∀ r ∈ (empty.run ws).statements, ¬ r.IsOf s) →
        (∀ r ∈ (empty.run ws).statements, r.id ≠ id) ∧ t' = { empty.run ws with
          statements := (empty.run ws).statements ++ [.ofNew id s] }) ∧
      t'.findStatements s.name s.first.label (s.second.map Entity.label) =
        [(s.statement id).toRecord] ∧
      ∀ (between : List Write) (s' : NewStatement), (∀ w ∈ between, w.Obtained) →
        (∀ gone, .purge gone ∉ between) → s'.Obtained → s'.name ≠ "" →
        (t'.run between).HasRoom s' →
        ∃ id' t'', (t'.run between).insertStatement s' = (.ok (s'.statement id'), t'') ∧
          (id' = id ↔ s' = s) := by
  have h := sound_empty.run hws
  obtain ⟨id, t', hinsert, hsound, hrow, hcases⟩ := h.insertStatement_spec hs hname hroom
  refine ⟨id, t', hinsert, ?_, ?_, hsound.findStatements_eq hs hrow, ?_⟩
  · intro r hr hof
    rcases hcases with ⟨hold, rfl⟩ | ⟨hnew, -, -⟩
    · have hof := h.eq_ofNew hs hr hof
      exact ⟨(h.id_eq_iff hs hs hold (hof ▸ hr)).mpr rfl, rfl⟩
    · exact absurd hof (hnew r hr)
  · intro hnew
    rcases hcases with ⟨hold, -⟩ | ⟨-, hfree, hadded⟩
    · exact absurd ⟨rfl, rfl, rfl⟩ (hnew _ hold)
    · exact ⟨hasStatement_eq_false.mp hfree, hadded⟩
  · intro between s' hbetween hkept hs' hname' hroom'
    have hlater := hsound.run hbetween
    obtain ⟨id', t'', hinsert', hsound', hrow', hcases'⟩ :=
      hlater.insertStatement_spec hs' hname' hroom'
    have hstays : .ofNew id s ∈ t''.statements := by
      have hmem := mem_run hrow (hkept _)
      rcases hcases' with ⟨-, rfl⟩ | ⟨-, -, rfl⟩
      · exact hmem
      · exact List.mem_append_left _ hmem
    exact ⟨id', t'', hinsert', hsound'.id_eq_iff hs hs' hstays hrow'⟩

theorem insertStatement_getOrCreate_specimen :
    ∃ t, (empty.run specimenWrites).insertStatement specimenNetwork =
        (.ok (specimenNetwork.statement ⟨2⟩), t) ∧ t = empty.run specimenWrites ∧
      t.findStatements "abuse" "10.0.0.0/8" none = [(specimenNetwork.statement ⟨2⟩).toRecord] ∧
      ∃ id t', t.insertStatement specimenDomain = (.ok (specimenDomain.statement id), t') ∧
        id ≠ ⟨2⟩ := by
  have hrow : .ofNew ⟨2⟩ specimenNetwork ∈ (empty.run specimenWrites).statements := by
    decide +kernel
  obtain ⟨id, t, hinsert, hfound, -, hlookup, hlater⟩ :=
    insertStatement_getOrCreate specimenWrites_obtained specimenNetwork_obtained (by decide)
      (.inl ⟨_, hrow, rfl, rfl, rfl⟩)
  obtain ⟨rfl, rfl⟩ := hfound _ hrow ⟨rfl, rfl, rfl⟩
  have hshort : (empty.run specimenWrites).statements.length < 2 ^ 63 - 1 := by decide +kernel
  obtain ⟨id', t', hinsert', hid⟩ :=
    hlater [] specimenDomain (by simp) (by simp) specimenDomain_obtained (by decide) (.inr hshort)
  refine ⟨_, hinsert, rfl, hlookup, id', t', hinsert', ?_⟩
  intro heq
  exact absurd (hid.mp heq) (by decide)

end Tables
end Store
end Reputation
