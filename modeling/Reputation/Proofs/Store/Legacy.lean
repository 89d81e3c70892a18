import Reputation.Proofs.Store.Decoding
import Reputation.Proofs.Store.GetOrCreate
import Reputation.Proofs.Store.Migration
/-!
Storing statements in databases that were brought forward. Rows that an older writer left behind
may say the same as a statement to be stored in other words: such a row is found again if it is
written as the statement is. An empty second label stands in the way of the statement without one.
-/
namespace Reputation

theorem AddressRange.ofColumns_ok {lower upper : Option Bound} {range : Option AddressRange}
    (h : ofColumns lower upper = .ok range) :
    lower = range.map (·.min) ∧ upper = range.map (·.max) := by
  unfold ofColumns at h
  split at h
  · cases h
    exact ⟨rfl, rfl⟩
  · unfold ofBounds at h
    split at h <;> cases h
    exact ⟨rfl, rfl⟩
  · cases h

theorem Statement.toRecord_of_ofRecord {r : StatementRecord} {s : Statement}
    (h : ofRecord r = .ok s) : s.toRecord = r := by
  unfold ofRecord at h
  split at h
  · cases h
  · split at h
    · cases h
    · split at h
      · cases h
      · split at h <;> cases h
        rename_i hcolumns
        obtain ⟨hlower, hupper⟩ := AddressRange.ofColumns_ok hcolumns
        rw [toRecord, ← hlower, ← hupper]

namespace Store

namespace Cell

theorem Denotes.unique {c : Cell} {b b' : Option Bound} (h : c.Denotes b) (h' : c.Denotes b') :
    b = b' := by
  rw [← decodeBound_eq_ok] at h h'
  exact Except.ok.inj (h.symm.trans h')

/-- Readable cells count as the same where uniqueness is decided only if they are the same. -/
theorem Denotes.eq_of_orEmpty {c c' : Cell} {b b' : Option Bound} (h : c.Denotes b)
    (h' : c'.Denotes b') (heq : c.orEmpty = c'.orEmpty) : c = c' := by
  cases h with
  | null =>
    cases h' with
    | null => rfl
    | text hparse =>
      obtain rfl := Cell.text.inj heq
      cases hparse
  | text hparse =>
    cases h' with
    | null =>
      obtain rfl := Cell.text.inj heq
      cases hparse
    | text => exact heq

theorem denotes_ofBound (b : Option Bound) : (ofBound b).Denotes b :=
  decodeBound_eq_ok.mp (decodeBound_ofBound b)

end Cell

namespace StatementRow

variable {r : StatementRow} {s : NewStatement}

/-- Both bounds are missing or written in some form that can be read. -/
def Legible (r : StatementRow) : Prop := r.lower.IsReadable ∧ r.upper.IsReadable

instance (r : StatementRow) : Decidable r.Legible := inferInstanceAs (Decidable (_ ∧ _))

/-- The row stands for a statement with the name, the entities and the range of the new one, in
whatever way its labels and bounds are written. -/
def Means (r : StatementRow) (s : NewStatement) : Prop :=
  ∃ st, r.StandsFor st ∧ st.name = s.name ∧ Entity.parse st.firstEntity = .ok s.first ∧
    st.secondEntity.map Entity.parse = s.second.map .ok ∧ st.range = s.range?

/-- Labels and bounds are written as they are printed. -/
structure Canonical (r : StatementRow) : Prop where
  first : ∀ e, Entity.parse r.first = .ok e → r.first = e.label
  second : ∀ label e, r.second = some label → Entity.parse label = .ok e → label = e.label
  lower : ∀ b, r.lower.Denotes b → r.lower = .ofBound b
  upper : ∀ b, r.upper.Denotes b → r.upper = .ofBound b

theorem canonical_ofNew (id : StatementId) (hs : s.Obtained) : (ofNew id s).Canonical where
  first e he := by
    cases he.symm.trans hs.first.parse_label
    rfl
  second label e hlabel he := by
    obtain ⟨e', hsecond, rfl⟩ := Option.map_eq_some_iff.mp hlabel
    cases he.symm.trans (hs.second e' hsecond).parse_label
    rfl
  lower b hb := by
    rw [hb.unique (Cell.denotes_ofBound _)]
    rfl
  upper b hb := by
    rw [hb.unique (Cell.denotes_ofBound _)]
    rfl

theorem means_ofNew (id : StatementId) (hs : s.Obtained) (hname : s.name ≠ "") :
    (ofNew id s).Means s := by
  have hvalid : (ofNew id s).StandsFor (s.statement id) := by
    rw [standsFor_iff, toRecord_ofNew]
    exact hs.ofRecord_statement hname id
  refine ⟨s.statement id, hvalid, rfl, hs.first.parse_label, ?_, rfl⟩
  cases hsecond : s.second with
  | none => simp [NewStatement.statement, hsecond]
  | some e => simp [NewStatement.statement, hsecond, (hs.second e hsecond).parse_label]

theorem Means.eq_ofNew (h : r.Means s) (hcanonical : r.Canonical) : r = .ofNew r.id s := by
  obtain ⟨st, ⟨record, hreads, hvalid⟩, hname, hfirst, hsecond, hrange⟩ := h
  obtain rfl := Statement.toRecord_of_ofRecord hvalid
  have hname : r.name = s.name := hreads.name.symm.trans hname
  have hfirst : r.first = s.first.label := hcanonical.first _ (hreads.first ▸ hfirst)
  have hsecond : r.second = s.second.map Entity.label := by
    have hparse : r.second.map Entity.parse = s.second.map .ok := hreads.second ▸ hsecond
    cases hlabel : r.second with
    | none =>
      rw [hlabel] at hparse
      cases hs : s.second with
      | none => rfl
      | some e =>
        rw [hs] at hparse
        cases hparse
    | some label =>
      rw [hlabel] at hparse
      cases hs : s.second with
      | none =>
        rw [hs] at hparse
        cases hparse
      | some e =>
        rw [hs] at hparse
        have he : Entity.parse label = .ok e := Option.some.inj hparse
        exact congrArg some (hcanonical.second label e hlabel he)
  have hlower : r.lower = .ofBound (s.range?.map (·.min)) := by
    rw [hcanonical.lower _ hreads.lower, ← hrange]
    rfl
  have hupper : r.upper = .ofBound (s.range?.map (·.max)) := by
    rw [hcanonical.upper _ hreads.upper, ← hrange]
    rfl
  cases r
  simp_all [ofNew]

/-- The row is that of the statement, but for an empty second label in place of a missing one. -/
def Shadows (r : StatementRow) (s : NewStatement) : Prop :=
  r.second = some "" ∧ { r with second := none } = .ofNew r.id s

instance (r : StatementRow) (s : NewStatement) : Decidable (r.Shadows s) :=
  inferInstanceAs (Decidable (_ ∧ _))

theorem key_eq_iff (h : r.Legible) (hs : s.Obtained) :
    r.key = (ofNew ⟨0⟩ s).key ↔ r = .ofNew r.id s ∨ r.Shadows s := by
  constructor
  · intro hkey
    simp only [key, ofNew, Prod.mk.injEq] at hkey
    obtain ⟨hname, hfirst, hsecond, hlower, hupper⟩ := hkey
    obtain ⟨⟨_, hdenotes⟩, ⟨_, hdenotes'⟩⟩ := h
    have hlower := hdenotes.eq_of_orEmpty (Cell.denotes_ofBound _) hlower
    have hupper := hdenotes'.eq_of_orEmpty (Cell.denotes_ofBound _) hupper
    by_cases hempty : r.second = some ""
    · refine .inr ⟨hempty, ?_⟩
      have hmissing : s.second.map Entity.label = none := by
        cases hs' : s.second.map Entity.label with
        | none => rfl
        | some label =>
          rw [hempty, hs'] at hsecond
          obtain rfl : "" = label := hsecond
          exact absurd hs' hs.second_ne_empty
      simp only [ofNew, hname, hfirst, hmissing, hlower, hupper]
    · refine .inl ?_
      have hsecond := eq_of_getD_eq hempty hs.second_ne_empty hsecond
      cases r
      simp_all [ofNew]
  · rintro (hrow | ⟨hempty, hrow⟩)
    · rw [hrow]
      exact key_ofNew r.id ⟨0⟩ s
    · have hkey : r.key = ({ r with second := none } : StatementRow).key := by
        simp [key, hempty]
      rw [hkey, hrow]
      exact key_ofNew r.id ⟨0⟩ s

theorem Shadows.ne_ofNew (h : r.Shadows s) (hs : s.Obtained) (id : StatementId) :
    r ≠ .ofNew id s := by
  intro hrow
  have hempty := h.1
  rw [hrow] at hempty
  exact hs.second_ne_empty hempty

end StatementRow

namespace Tables

variable {t : Tables} {s : NewStatement}

/-- Statements have numbers and keys of their own, and bounds that can be read. -/
structure Legible (t : Tables) : Prop where
  keyed : t.Keyed
  statement_keys : (t.statements.map (·.key)).Nodup
  rows : ∀ r ∈ t.statements, r.Legible

/-- A statement is found in its very row, is kept out by a row with an empty label, or is added. -/
theorem Legible.insertStatement_cases (h : t.Legible) (hs : s.Obtained) (hname : s.name ≠ "")
    (hroom : t.statements.length < 2 ^ 63 - 1) :
    (∃ id, .ofNew id s ∈ t.statements ∧ t.insertStatement s = (.ok (s.statement id), t)) ∨
      (∃ r ∈ t.statements, r.Shadows s ∧ t.insertStatement s = (.error .keyTaken, t)) ∨
      ((∀ r ∈ t.statements, r ≠ .ofNew r.id s ∧ ¬ r.Shadows s) ∧
        ∃ id, t.hasStatement id = false ∧ t.insertStatement s =
          (.ok (s.statement id), { t with statements := t.statements ++ [.ofNew id s] })) := by
  by_cases htaken : ∃ r ∈ t.statements, r.key = (StatementRow.ofNew ⟨0⟩ s).key
  · obtain ⟨r, hr, hkey⟩ := htaken
    rcases (StatementRow.key_eq_iff (h.rows r hr) hs).mp hkey with hrow | hshadows
    · have hmem : .ofNew r.id s ∈ t.statements := hrow ▸ hr
      exact .inl ⟨r.id, hmem, insertStatement_found h.statement_keys hs hname hmem⟩
    · refine .inr (.inl ⟨r, hr, hshadows, insertStatement_taken hr hkey ?_⟩)
      intro r' hr' hrow
      have hkey' := (StatementRow.key_eq_iff (h.rows r' hr') hs).mpr (.inl hrow)
      obtain rfl := List.inj_on_of_nodup_map h.statement_keys hr hr' (hkey.trans hkey'.symm)
      exact hshadows.ne_ofNew hs _ hrow
  · have hnew : ∀ r ∈ t.statements, r.key ≠ (StatementRow.ofNew ⟨0⟩ s).key :=
      fun r hr hkey => htaken ⟨r, hr, hkey⟩
    refine .inr (.inr ⟨?_, insertStatement_added hs hname hnew hroom⟩)
    intro r hr
    have hneither := mt (StatementRow.key_eq_iff (h.rows r hr) hs).mpr (hnew r hr)
    exact ⟨fun hrow => hneither (.inl hrow), fun hshadows => hneither (.inr hshadows)⟩

end Tables

namespace Database

open Tables

/-- A database of one of the first two layouts. Bounds, which the second one has, are missing or
written in some form that can be read. -/
inductive Legacy : Database → Prop where
  | slotted (statements : List SlottedRow) (opinions : List OpinionRow) :
      Legacy (slotted statements opinions)
  | ranged {statements : List RangedRow} (opinions : List OpinionRow)
      (h : ∀ r ∈ statements, r.withoutSlots.Legible) : Legacy (ranged statements opinions)

theorem legible_withBounds (r : SlottedRow) : r.withBounds.withoutSlots.Legible :=
  ⟨⟨_, Cell.denotes_ofBound _⟩, ⟨_, Cell.denotes_ofBound _⟩⟩

theorem legible_survivors {rows : List StatementRow} (hids : (rows.map (·.id)).Nodup)
    (hrows : ∀ r ∈ rows, r.Legible) (opinions : List OpinionRow) :
    Tables.Legible ⟨survivors rows, opinions, []⟩ where
  keyed := (List.filter_sublist.map _).nodup hids
  statement_keys := survivors_keys hids
  rows r hr := hrows r (mem_survivors.mp hr).1

theorem legible_ranged {rows : List RangedRow} (opinions : List OpinionRow)
    (hids : (rows.map (·.id)).Nodup) (hrows : ∀ r ∈ rows, r.withoutSlots.Legible) :
    ∃ t, (ranged rows opinions).step = .ok (current t) ∧ t.Legible := by
  refine ⟨_, step_ranged_eq hids, legible_survivors ?_ ?_ _⟩
  · rw [List.map_map]
    exact hids
  · intro r hr
    obtain ⟨r', hr', rfl⟩ := List.mem_map.mp hr
    exact hrows r' hr'

theorem Legacy.migrate {db : Database} (h : db.Legacy) (hkeyed : db.isKeyed) :
    ∃ t, db.migrate = .ok (current t) ∧ t.Legible := by
  cases h with
  | slotted statements opinions =>
    simp only [isKeyed, Bool.and_eq_true, decide_eq_true_eq] at hkeyed
    have hids : ((statements.map SlottedRow.withBounds).map (·.id)).Nodup := by
      rw [List.map_map]
      exact hkeyed.1.1
    have hrows : ∀ r ∈ statements.map SlottedRow.withBounds, r.withoutSlots.Legible := by
      intro r hr
      obtain ⟨r', -, rfl⟩ := List.mem_map.mp hr
      exact legible_withBounds r'
    obtain ⟨t, hstep, ht⟩ := legible_ranged opinions hids hrows
    refine ⟨t, ?_, ht⟩
    change (step (Database.ranged _ opinions)).bind (steps 1) = _
    rw [hstep]
    exact steps_current _ 1
  | ranged opinions hrows =>
    simp only [isKeyed, Bool.and_eq_true, decide_eq_true_eq] at hkeyed
    obtain ⟨t, hstep, ht⟩ := legible_ranged opinions hkeyed.1.1 hrows
    refine ⟨t, ?_, ht⟩
    change (step (Database.ranged _ opinions)).bind (steps 2) = _
    rw [hstep]
    exact steps_current _ 2

/-- In a database that was brought forward, storing a statement fails only where a row has an empty
second label in place of none. A row that says the same is found again just if it is written as rows
are written now. -/
theorem getOrCreate_after_migration {db : Database} (hlegacy : db.Legacy) (hkeyed : db.isKeyed) :
    ∃ t, db.migrate = .ok (current t) ∧ ∀ s : NewStatement, s.Obtained → s.name ≠ "" →
      t.statements.length < 2 ^ 63 - 1 →
      ((∀ r ∈ t.statements, ¬ r.Shadows s) →
        ∃ id, (t.insertStatement s).1 = .ok (s.statement id)) ∧
      (∀ r ∈ t.statements, r.Shadows s → t.insertStatement s = (.error .keyTaken, t)) ∧
      ∀ r ∈ t.statements, r.Means s →
        (r.Canonical → t.insertStatement s = (.ok (s.statement r.id), t)) ∧
        (¬ r.Canonical → ∀ st, (t.insertStatement s).1 = .ok st → st.id ≠ r.id) := by
  obtain ⟨t, hmigrate, ht⟩ := hlegacy.migrate hkeyed
  refine ⟨t, hmigrate, ?_⟩
  intro s hs hname hroom
  have hcases := ht.insertStatement_cases hs hname hroom
  refine ⟨?_, ?_, ?_⟩
  · intro hclear
    rcases hcases with ⟨id, -, hfound⟩ | ⟨r, hr, hshadows, -⟩ | ⟨-, id, -, hadded⟩
    · exact ⟨id, by rw [hfound]⟩
    · exact absurd hshadows (hclear r hr)
    · exact ⟨id, by rw [hadded]⟩
  · intro r hr hshadows
    rcases hcases with ⟨id, hrow, -⟩ | ⟨-, -, -, htaken⟩ | ⟨hneither, -⟩
    · have hkey := (StatementRow.key_eq_iff (ht.rows r hr) hs).mpr (.inr hshadows)
      have heq := List.inj_on_of_nodup_map ht.statement_keys hr hrow
        (hkey.trans (StatementRow.key_ofNew ⟨0⟩ id s))
      exact absurd heq (hshadows.ne_ofNew hs id)
    · exact htaken
    · exact absurd hshadows (hneither r hr).2
  · intro r hr hmeans
    constructor
    · intro hcanonical
      exact insertStatement_found ht.statement_keys hs hname (hmeans.eq_ofNew hcanonical ▸ hr)
    · intro hother st hst hid
      -- The row under the number in the answer is the one that would be written now.
      have hrow : r ≠ .ofNew r.id s := fun hrow =>
        hother (hrow ▸ StatementRow.canonical_ofNew r.id hs)
      rcases hcases with ⟨id, hmem, hfound⟩ | ⟨-, -, -, htaken⟩ | ⟨-, id, hfree, hadded⟩
      · rw [hfound] at hst
        cases hst
        exact hrow (List.inj_on_of_nodup_map ht.keyed hr (hid ▸ hmem) rfl)
      · rw [htaken] at hst
        cases hst
      · rw [hadded] at hst
        cases hst
        exact hasStatement_eq_false.mp hfree r hr hid.symm

def specimenHost : NewStatement := ⟨"abuse", .domain "example.net", none⟩

theorem specimenHost_obtained : specimenHost.Obtained where
  first := .parsed (s := "example.net") rfl
  second e he := by cases he

/-- The bounds of the first statement are not as wide as they are written now, and the second one
has an empty second label. -/
def wornDatabase : Database :=
  .ranged
    [⟨⟨⟨1⟩, "abuse", "10.0.0.0/8", none, none, none⟩, .text "ffff0a000000", .text "FFFF0AFFFFFF"⟩,
      ⟨⟨⟨2⟩, "spammer", "example.com", some "", none, none⟩, .null, .null⟩,
      ⟨⟨⟨3⟩, "abuse", "example.net", none, some "", none⟩, .null, .null⟩] []

def wornNetwork : StatementRow :=
  ⟨⟨1⟩, "abuse", "10.0.0.0/8", none, .text "ffff0a000000", .text "FFFF0AFFFFFF"⟩

def wornDomain : StatementRow := ⟨⟨2⟩, "spammer", "example.com", some "", .null, .null⟩

def wornTables : Tables := ⟨[wornNetwork, wornDomain, .ofNew ⟨3⟩ specimenHost], [], []⟩

theorem wornDatabase_legacy : wornDatabase.Legacy := .ranged [] (by decide +kernel)

theorem migrate_wornDatabase : wornDatabase.migrate = .ok (current wornTables) :=
  toOption_eq_some.mp (by decide +kernel)

theorem wornNetwork_means : wornNetwork.Means specimenNetwork :=
  ⟨specimenNetwork.statement ⟨1⟩,
    StatementRow.standsFor_iff.mpr (toOption_eq_some.mp (by decide +kernel)), rfl, rfl, rfl, rfl⟩

theorem wornDomain_shadows : wornDomain.Shadows specimenDomain := ⟨rfl, rfl⟩

theorem wornNetwork_not_canonical : ¬ wornNetwork.Canonical := by
  intro h
  have hlower := h.lower (some ⟨0xffff0a000000, by decide⟩)
    (.text (toOption_eq_some.mp (by decide +kernel)))
  exact absurd hlower (by decide)

theorem getOrCreate_after_migration_worn :
    ∃ t, wornDatabase.migrate = .ok (current t) ∧
      t.insertStatement specimenHost = (.ok (specimenHost.statement ⟨3⟩), t) ∧
      t.insertStatement specimenDomain = (.error .keyTaken, t) ∧
      ∃ id, id ≠ ⟨1⟩ ∧
        (t.insertStatement specimenNetwork).1 = .ok (specimenNetwork.statement id) := by
  obtain ⟨t, hmigrate, hinsert⟩ :=
    getOrCreate_after_migration wornDatabase_legacy (by decide +kernel)
  obtain rfl : wornTables = t := by
    cases migrate_wornDatabase.symm.trans hmigrate
    rfl
  have hroom : wornTables.statements.length < 2 ^ 63 - 1 := by decide
  refine ⟨wornTables, hmigrate, ?_, ?_, ?_⟩
  · obtain ⟨-, -, hrows⟩ := hinsert specimenHost specimenHost_obtained (by decide) hroom
    exact (hrows _ (by simp [wornTables])
      (StatementRow.means_ofNew ⟨3⟩ specimenHost_obtained (by decide))).1
      (StatementRow.canonical_ofNew ⟨3⟩ specimenHost_obtained)
  · obtain ⟨-, hshadowed, -⟩ := hinsert specimenDomain specimenDomain_obtained (by decide) hroom
    exact hshadowed wornDomain (by simp [wornTables]) wornDomain_shadows
  · obtain ⟨hclear, -, hrows⟩ := hinsert specimenNetwork specimenNetwork_obtained (by decide) hroom
    obtain ⟨id, hid⟩ := hclear (by decide +kernel)
    have hother := (hrows wornNetwork (by simp [wornTables]) wornNetwork_means).2
      wornNetwork_not_canonical _ hid
    exact ⟨id, hother, hid⟩

/-- A row that says the same as the statement does not keep it from being stored under another
number, and one with an empty second label keeps it from being stored at all. -/
theorem worn_rows_not_found :
    wornDatabase.Legacy ∧ wornDatabase.isKeyed ∧
      wornDatabase.migrate = .ok (current wornTables) ∧
      (specimenNetwork.Obtained ∧ specimenNetwork.name ≠ "" ∧
        ∃ r ∈ wornTables.statements, r.Means specimenNetwork ∧ r.id = ⟨1⟩ ∧
          (wornTables.insertStatement specimenNetwork).1 =
            .ok (specimenNetwork.statement ⟨4⟩)) ∧
      (specimenDomain.Obtained ∧ specimenDomain.name ≠ "" ∧
        (wornTables.insertStatement specimenDomain).1 = .error .keyTaken) := by
  refine ⟨wornDatabase_legacy, by decide +kernel, migrate_wornDatabase, ?_, ?_⟩
  · refine ⟨specimenNetwork_obtained, by decide, wornNetwork, by simp [wornTables],
      wornNetwork_means, rfl, ?_⟩
    exact toOption_eq_some.mp (by decide +kernel)
  · exact ⟨specimenDomain_obtained, by decide, rfl⟩

end Database
end Store
end Reputation
