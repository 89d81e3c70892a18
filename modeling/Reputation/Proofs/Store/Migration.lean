import Reputation.Store.Schema
import Mathlib.Data.Finset.Max
import Mathlib.Data.List.Nodup
/-!
Bringing databases of the first layout up to the last. Rows that differ only in the slots that were
dropped come down to the oldest of them, with its opinions; nothing else is lost, and it makes no
difference at which step the migration is interrupted and taken up again.
-/
namespace Reputation.Store

theorem mem_survivors {rows : List StatementRow} {r : StatementRow} :
    r ∈ survivors rows ↔ r ∈ rows ∧ ∀ older ∈ rows, older.id < r.id → older.key ≠ r.key := by
  simp [survivors]

theorem survivors_keys {rows : List StatementRow} (h : (rows.map (·.id)).Nodup) :
    ((survivors rows).map (·.key)).Nodup := by
  have hsurvivors : (survivors rows).Nodup := (List.Nodup.of_map _ h).filter _
  refine hsurvivors.map_on ?_
  intro r hr r' hr' hkey
  obtain ⟨hr, holdest⟩ := mem_survivors.mp hr
  obtain ⟨hr', holdest'⟩ := mem_survivors.mp hr'
  -- Of two survivors with the same key neither is older than the other.
  have hnot : ¬ r.id < r'.id := fun hlt => holdest' r hr hlt hkey
  have hnot' : ¬ r'.id < r.id := fun hlt => holdest r' hr' hlt hkey.symm
  rw [StatementId.lt_iff] at hnot hnot'
  exact List.inj_on_of_nodup_map h hr hr' ((StatementId.eq_iff r.id r'.id).mpr (by omega))

namespace SlottedRow

def upgraded (r : SlottedRow) : StatementRow := r.withBounds.withoutSlots

/-- Rows with the same name, first entity and second entity, where a missing one counts as the empty
text: they differ at most in the slots that were dropped. -/
def Alike (r r' : SlottedRow) : Prop :=
  r.name = r'.name ∧ r.first = r'.first ∧ r.second.getD "" = r'.second.getD ""

instance (r r' : SlottedRow) : Decidable (r.Alike r') := inferInstanceAs (Decidable (_ ∧ _ ∧ _))

theorem Alike.trans {r r' r'' : SlottedRow} (h : r.Alike r') (h' : r'.Alike r'') : r.Alike r'' :=
  ⟨h.1.trans h'.1, h.2.1.trans h'.2.1, h.2.2.trans h'.2.2⟩

/-- No row that is like this one has a lower number. -/
def Oldest (rows : List SlottedRow) (r : SlottedRow) : Prop :=
  ∀ r' ∈ rows, r'.Alike r → ¬ r'.id < r.id

instance (rows : List SlottedRow) (r : SlottedRow) : Decidable (r.Oldest rows) :=
  inferInstanceAs (Decidable (∀ r' ∈ rows, r'.Alike r → ¬ r'.id < r.id))

/-- What a row becomes: number, name and the two entities are kept, and the bounds are those of the
first entity if its label denotes an address or a network. -/
structure Becomes (r : SlottedRow) (row : StatementRow) : Prop where
  id : row.id = r.id
  name : row.name = r.name
  first : row.first = r.first
  second : row.second = r.second
  bounds : ∀ e q, Entity.parse r.first = .ok e → e.range? = some q →
    row.lower = .text q.min.text ∧ row.upper = .text q.max.text
  no_bounds : (∀ e, Entity.parse r.first = .ok e → e.range? = none) →
    row.lower = .null ∧ row.upper = .null

theorem becomes_upgraded (r : SlottedRow) : r.Becomes r.upgraded where
  id := rfl
  name := rfl
  first := rfl
  second := rfl
  bounds e q he hq := by
    simp [upgraded, RangedRow.withoutSlots, withBounds, he, Except.toOption, hq, Cell.ofBound]
  no_bounds hnone := by
    have hrange : (Entity.parse r.first).toOption.bind Entity.range? = none := by
      cases he : Entity.parse r.first with
      | error err => rfl
      | ok e => exact hnone e he
    simp [upgraded, RangedRow.withoutSlots, withBounds, hrange, Cell.ofBound]

/-- Bounds come from the first entity, so they tell no two rows apart that are alike. -/
theorem key_upgraded (r r' : SlottedRow) : r.upgraded.key = r'.upgraded.key ↔ r.Alike r' := by
  constructor
  · intro hkey
    simp only [StatementRow.key, Prod.mk.injEq] at hkey
    exact ⟨hkey.1, hkey.2.1, hkey.2.2.1⟩
  · rintro ⟨hname, hfirst, hsecond⟩
    simp [StatementRow.key, upgraded, RangedRow.withoutSlots, withBounds, hname, hfirst, hsecond]

theorem survivors_upgraded (rows : List SlottedRow) :
    survivors (rows.map upgraded) = (rows.filter fun r => r.Oldest rows).map upgraded := by
  rw [survivors, List.filter_map]
  congr 1
  refine List.filter_congr ?_
  intro r _
  rw [Bool.eq_iff_iff]
  simp only [Function.comp_apply, Bool.not_eq_true', List.any_eq_false, List.mem_map,
    forall_exists_index, and_imp, forall_apply_eq_imp_iff₂, Bool.and_eq_true, decide_eq_true_eq,
    key_upgraded, not_and]
  exact forall₂_congr fun r' _ => imp_not_comm

theorem exists_oldest {rows : List SlottedRow} {r : SlottedRow} (h : r ∈ rows) :
    ∃ r' ∈ rows, r'.Alike r ∧ r'.Oldest rows := by
  have hne : (rows.filter (·.Alike r)).toFinset.Nonempty :=
    ⟨r, by simpa using ⟨h, rfl, rfl, rfl⟩⟩
  obtain ⟨least, hleast, hle⟩ := Finset.exists_min_image _ (fun r' => r'.id.val.toInt) hne
  obtain ⟨hmem, halike⟩ : least ∈ rows ∧ least.Alike r := by simpa using hleast
  refine ⟨least, hmem, halike, ?_⟩
  intro r' hr' halike'
  have hbelow := hle r' (by simpa using ⟨hr', halike'.trans halike⟩)
  rw [StatementId.lt_iff]
  omega

end SlottedRow

theorem keepOpinions_eq {rows : List StatementRow} {opinions : List OpinionRow}
    (h : ∀ o ∈ opinions, ∃ r ∈ rows, r.id = o.statementId) (t : Tables) :
    keepOpinions rows t.statements opinions =
      opinions.filter fun o => t.hasStatement o.statementId := by
  refine List.filter_congr ?_
  intro o ho
  have hstored : rows.any (·.id = o.statementId) = true := by simpa using h o ho
  simp [hstored, Tables.hasStatement]

namespace Database

variable {rows : List SlottedRow} {opinions : List OpinionRow}

theorem steps_current (t : Tables) (n : Nat) : (current t).steps n = .ok (current t) := by
  induction n with
  | zero => rfl
  | succ n ih => exact ih

/-- The tables of the last layout: the oldest rows, and the opinions on them. -/
def upgradedTables (rows : List SlottedRow) (opinions : List OpinionRow) : Tables :=
  let kept := (rows.filter fun r => r.Oldest rows).map SlottedRow.upgraded
  ⟨kept, keepOpinions (rows.map SlottedRow.upgraded) kept opinions, []⟩

/-- Numbers are distinct, so the rows that survive have keys of their own. -/
theorem step_ranged_eq {rows : List RangedRow} (h : (rows.map (·.id)).Nodup) :
    (ranged rows opinions).step =
      let merged := rows.map RangedRow.withoutSlots
      .ok (current ⟨survivors merged, keepOpinions merged (survivors merged) opinions, []⟩) := by
  have hids : ((rows.map RangedRow.withoutSlots).map (·.id)).Nodup := by
    rw [List.map_map]
    exact h
  simp only [step]
  rw [if_pos (survivors_keys hids)]

theorem step_ranged (h : (rows.map (·.id)).Nodup) :
    (ranged (rows.map SlottedRow.withBounds) opinions).step =
      .ok (current (upgradedTables rows opinions)) := by
  -- Both layouts together turn the rows into their upgraded forms.
  have hrows : (rows.map SlottedRow.withBounds).map RangedRow.withoutSlots =
      rows.map SlottedRow.upgraded := by
    rw [List.map_map]
    rfl
  have hids : ((rows.map SlottedRow.withBounds).map (·.id)).Nodup := by
    rw [List.map_map]
    exact h
  simp only [step_ranged_eq hids, hrows, SlottedRow.survivors_upgraded]
  rfl

theorem migrate_ranged (h : (rows.map (·.id)).Nodup) :
    (ranged (rows.map SlottedRow.withBounds) opinions).migrate =
      .ok (current (upgradedTables rows opinions)) := by
  change (step _).bind (steps 2) = _
  rw [step_ranged h]
  exact steps_current _ 2

theorem steps_slotted (h : (rows.map (·.id)).Nodup) (n : Nat) :
    (slotted rows opinions).steps (n + 2) = .ok (current (upgradedTables rows opinions)) := by
  change (step (ranged (rows.map SlottedRow.withBounds) opinions)).bind (steps n) = _
  rw [step_ranged h]
  exact steps_current _ n

/-- At whatever step the migration was interrupted, opening the database completes it. -/
theorem migrate_steps (h : (rows.map (·.id)).Nodup) (n : Nat) :
    ∃ db, (slotted rows opinions).steps n = .ok db ∧
      db.migrate = .ok (current (upgradedTables rows opinions)) := by
  match n with
  | 0 => exact ⟨_, rfl, steps_slotted h 1⟩
  | 1 => exact ⟨_, rfl, migrate_ranged h⟩
  | n + 2 => exact ⟨_, steps_slotted h n, steps_current _ 3⟩

theorem isKeyed_upgradedTables (h : (slotted rows opinions).isKeyed) :
    (current (upgradedTables rows opinions)).isKeyed := by
  simp only [isKeyed, isKeyed.opinionsKeyed, Bool.and_eq_true, decide_eq_true_eq] at h ⊢
  obtain ⟨⟨hids, -⟩, hopinionIds, hopinionKeys⟩ := h
  have hupgraded : ((rows.map SlottedRow.upgraded).map (·.id)).Nodup := by
    rw [List.map_map]
    exact hids
  have hkept : (upgradedTables rows opinions).statements = survivors (rows.map SlottedRow.upgraded) :=
    (SlottedRow.survivors_upgraded rows).symm
  rw [hkept]
  exact ⟨⟨⟨(List.filter_sublist.map _).nodup hupgraded, survivors_keys hupgraded⟩,
    (List.filter_sublist.map _).nodup hopinionIds, (List.filter_sublist.map _).nodup hopinionKeys⟩,
    List.nodup_nil⟩

/-- A database of the first layout becomes one of the last: of rows that are alike the oldest stays,
with bounds of its own, and so do the opinions on the rows that stay. -/
theorem migrate_slotted (hkeyed : (slotted rows opinions).isKeyed)
    (hrefer : ∀ o ∈ opinions, ∃ r ∈ rows, r.id = o.statementId) :
    ∃ t, (slotted rows opinions).migrate = .ok (current t) ∧ (current t).version = 3 ∧
      (current t).isKeyed ∧
      List.Forall₂ SlottedRow.Becomes (rows.filter fun r => r.Oldest rows) t.statements ∧
      (∀ r ∈ rows, ∃ kept ∈ rows, kept.Alike r ∧ kept.Oldest rows) ∧
      t.opinions = (opinions.filter fun o => t.hasStatement o.statementId) ∧
      t.hints = [] ∧
      (∀ n, ∃ db, (slotted rows opinions).steps n = .ok db ∧ db.migrate = .ok (current t)) ∧
      (current t).migrate = .ok (current t) := by
  have hids : (rows.map (·.id)).Nodup := by
    simp only [isKeyed, Bool.and_eq_true, decide_eq_true_eq] at hkeyed
    exact hkeyed.1.1
  refine ⟨upgradedTables rows opinions, steps_slotted hids 1, rfl, isKeyed_upgradedTables hkeyed,
    ?_, fun r hr => SlottedRow.exists_oldest hr, ?_, rfl, migrate_steps hids, steps_current _ 3⟩
  · exact List.forall₂_map_right_iff.mpr (List.forall₂_same.mpr fun r _ => r.becomes_upgraded)
  · refine keepOpinions_eq ?_ (upgradedTables rows opinions)
    intro o ho
    obtain ⟨r, hr, hid⟩ := hrefer o ho
    exact ⟨r.upgraded, List.mem_map_of_mem hr, hid⟩

/-- The second row differs from the first in its third slot, and in that its second one is empty
rather than missing. -/
def specimenRows : List SlottedRow :=
  [⟨⟨3⟩, "abuse", "10.0.0.0/8", none, none, none⟩,
    ⟨⟨1⟩, "abuse", "10.0.0.0/8", some "", some "example.net", none⟩,
    ⟨⟨2⟩, "spammer", "example.com", none, none, none⟩]

def specimenOpinions : List OpinionRow :=
  [⟨⟨1⟩, ⟨3⟩, ⟨7⟩, 0, 1, 1, 3, [], none⟩, ⟨⟨2⟩, ⟨1⟩, ⟨7⟩, 0, 1, 1, -3, [], none⟩]

theorem migrate_slotted_specimen :
    ∃ t first second, (slotted specimenRows specimenOpinions).migrate = .ok (current t) ∧
      t.statements = [first, second] ∧ first.id = ⟨1⟩ ∧ second.id = ⟨2⟩ ∧ second.lower = .null ∧
      t.opinions = (specimenOpinions.filter fun o => t.hasStatement o.statementId) := by
  have hrefer : ∀ o ∈ specimenOpinions, ∃ r ∈ specimenRows, r.id = o.statementId := by decide
  obtain ⟨t, hmigrate, -, -, hbecomes, -, hopinions, -⟩ :=
    migrate_slotted (by decide +kernel) hrefer
  have holdest : specimenRows.filter (fun r => r.Oldest specimenRows) = specimenRows.drop 1 := by
    decide +kernel
  rw [holdest] at hbecomes
  generalize hrows : t.statements = rows at hbecomes
  obtain _ | ⟨hfirst, _ | ⟨hsecond, ⟨⟩⟩⟩ := hbecomes
  refine ⟨t, _, _, hmigrate, hrows, hfirst.id, hsecond.id, (hsecond.no_bounds ?_).1, hopinions⟩
  intro e he
  obtain rfl : .domain "example.com" = e := Except.ok.inj he
  rfl

end Database
end Reputation.Store
