import Reputation.Proofs.Resolution.Faults
import Reputation.Proofs.Store.Decoding
import Reputation.Proofs.Store.Indexing
/-!
Tables with rows that cannot be decoded, are no statements, or are out of range. Whatever reads the
tables leaves these rows out and does not fail: verdicts are those over tables without them. The
texts in cells are UTF-8, and nothing is said of tables where a cell has other bytes under the type
of texts: reading such a cell is part of fetching its row, before a row can be left out.
-/
namespace Reputation.Store

namespace Tables

variable {t u : Tables} {id : StatementId}

/-- What is left of the tables when their bad rows are deleted. Whether the opinions on a deleted
statement go with it is left open. -/
structure SiftedTo (t u : Tables) : Prop where
  statements : u.statements = t.statements.filter (·.IsValid)
  opinions : ∀ id, u.hasStatement id →
    u.opinions.filter (·.statementId = id) =
      t.opinions.filter fun row => row.statementId = id && row.InRange

/-- The keys of the signers that tables describe, to be asked for over other tables. -/
def keyring (t : Tables) : KeyStore Tables where
  publicKeyFor signer u := (.answer (t.publicKeyFor signer), u)

theorem statement?_iff (h : t.Keyed) {s : Statement} :
    t.statement? id = some s ↔ ∃ row ∈ t.statements, row.id = id ∧ row.StandsFor s := by
  simp only [statement?_eq_some h, StatementRow.standsFor_iff]

theorem SiftedTo.keyed (h : t.SiftedTo u) (hkeyed : t.Keyed) : u.Keyed := by
  unfold Keyed
  rw [h.statements]
  exact (List.filter_sublist.map _).nodup hkeyed

theorem SiftedTo.statement?_eq (h : t.SiftedTo u) (hkeyed : t.Keyed) :
    u.statement? = t.statement? := by
  funext id
  ext s
  rw [statement?_iff hkeyed, statement?_iff (h.keyed hkeyed), h.statements]
  constructor
  · rintro ⟨row, hrow, hid, hs⟩
    exact ⟨row, List.mem_of_mem_filter hrow, hid, hs⟩
  · rintro ⟨row, hrow, hid, hs⟩
    exact ⟨row, List.mem_filter.mpr ⟨hrow, decide_eq_true ⟨s, hs⟩⟩, hid, hs⟩

theorem getOpinions_distinct (hids : (t.opinions.map (·.id)).Nodup) (id : StatementId) :
    ((t.getOpinions id).map (·.id)).Nodup := by
  have hrows : ((t.opinionsById.filter (·.statementId = id)).map (·.id)).Nodup :=
    (List.filter_sublist.map _).nodup (((List.mergeSort_perm _ _).map _).nodup_iff.mpr hids)
  refine (keys_filterMap_sublist ?_ _).nodup hrows
  intro row o ho
  exact ((toOption_toOpinion row o).mp ho).id

/-- Opinions have numbers of their own, so there is one order only to list them in. -/
theorem eq_getOpinions_of_perm {os : List Opinion} (hids : (t.opinions.map (·.id)).Nodup)
    (hsorted : os.Pairwise (·.id.val ≤ ·.id.val)) (hperm : os.Perm (t.getOpinions id)) :
    os = t.getOpinions id := by
  refine hperm.eq_of_pairwise ?_ hsorted (readOff_getOpinions t id).2
  intro o o' ho ho' hle hge
  refine List.inj_on_of_nodup_map (getOpinions_distinct hids id) (hperm.mem_iff.mp ho) ho' ?_
  have heq : o.id.val = o'.id.val := Int64.le_antisymm hle hge
  cases hid : o.id
  cases hid' : o'.id
  simpa [hid, hid'] using heq

theorem getOpinions_eq_of_perm (hids : (t.opinions.map (·.id)).Nodup)
    (hperm : (u.getOpinions id).Perm (t.getOpinions id)) :
    u.getOpinions id = t.getOpinions id :=
  eq_getOpinions_of_perm hids (readOff_getOpinions u id).2 hperm

theorem filterMap_toOpinion_inRange (rows : List OpinionRow) :
    (rows.filter (·.InRange)).filterMap (fun row => row.toOpinion.toOption) =
      rows.filterMap fun row => row.toOpinion.toOption := by
  rw [List.filterMap_filter]
  refine List.filterMap_congr ?_
  intro row _
  by_cases h : row.InRange
  · rw [if_pos (decide_eq_true h)]
  · rw [if_neg (by simpa using h)]
    symm
    rw [Option.eq_none_iff_forall_ne_some]
    intro o ho
    exact h ((toOption_toOpinion row o).mp ho).inRange

theorem SiftedTo.getOpinions_eq (h : t.SiftedTo u) (hids : (t.opinions.map (·.id)).Nodup)
    (hstored : u.hasStatement id) : u.getOpinions id = t.getOpinions id := by
  refine getOpinions_eq_of_perm hids ((getOpinions_perm u id).trans ?_)
  have hrows : u.opinions.filter (·.statementId = id) =
      (t.opinions.filter (·.statementId = id)).filter (·.InRange) := by
    rw [h.opinions id hstored, List.filter_filter]
    simp only [Bool.and_comm]
  rw [hrows, filterMap_toOpinion_inRange]
  exact (getOpinions_perm t id).symm

theorem record?_content (h : t.Keyed) (id : StatementId) :
    (t.content h).record? id =
      (t.statements.find? (·.id = id)).bind fun row => row.toRecord.toOption := by
  ext r
  simp only [Content.record?_eq_some, Option.bind_eq_some_iff, find?_key_eq_some h,
    toOption_eq_some]
  constructor
  · rintro ⟨hr, rfl⟩
    obtain ⟨row, hrow, hdecoded⟩ := mem_scanStatements.mp hr
    exact ⟨row, ⟨hrow, (StatementRow.toRecord_eq_ok.mp hdecoded).id.symm⟩, hdecoded⟩
  · rintro ⟨row, ⟨hrow, rfl⟩, hdecoded⟩
    exact ⟨mem_scanStatements.mpr ⟨row, hrow, hdecoded⟩,
      (StatementRow.toRecord_eq_ok.mp hdecoded).id⟩

/-- A row that cannot be decoded is taken for none. -/
theorem sparing_getStatement (h : t.Keyed) (id : StatementId) :
    (reply (t.getStatement id)).sparing = .answer ((t.content h).record? id) := by
  rw [record?_content, getStatement]
  cases hrow : t.statements.find? (·.id = id) with
  | none => rfl
  | some row =>
    cases hr : row.toRecord with
    | ok r => simp [hr, Except.map, Except.mapError, reply, Reply.sparing, Except.toOption]
    | error e =>
      obtain ⟨fault, rfl⟩ := StatementRow.toRecord_error hr
      simp only [hr, Except.map, Except.mapError, Option.bind_some, Except.toOption]
      rfl

/-- What tables hold, with the keys that are asked for elsewhere. -/
def contentWith (t : Tables) (h : t.Keyed) (key? : SignerId → Option PublicKey) : Content :=
  { t.content h with key? }

theorem reads_sparing (h : t.Keyed) {keys : KeyStore Tables} (trust : SignerId → Float)
    {key? : SignerId → Option PublicKey}
    (hkeys : ∀ signer, (keys.publicKeyFor signer).Answers (· = t) (key? signer)) :
    (⟨records, keys, trust⟩ : Engine Tables).sparing.Reads (t.contentWith h key?) (· = t) where
  getOpinions id := by
    rintro world rfl
    exact ⟨world, rfl, rfl⟩
  publicKeyFor := hkeys
  scanStatements := by
    rintro world rfl
    exact ⟨world, rfl, rfl⟩
  getStatement id := by
    rintro world rfl
    exact ⟨world, rfl, congrArg (·, world) (sparing_getStatement h id)⟩

theorem ends_resolve_tables (h : t.Keyed) {keys : KeyStore Tables} (trust : SignerId → Float)
    {key? : SignerId → Option PublicKey}
    (hkeys : ∀ signer, (keys.publicKeyFor signer).Answers (· = t) (key? signer)) (ix : Index)
    (d : Descriptor) (asOf : Instant) :
    Attempt.Ends (· = t) ((⟨records, keys, trust⟩ : Engine Tables).resolve ix d asOf)
      (.ok (aggregate d.label asOf
        ((t.contentWith h key?).collected asOf (Engine.candidates ix d).toList) trust)) := by
  have hends := Engine.ends_resolve_collected (reads_sparing h trust hkeys) ix d asOf
  unfold Engine.resolve at hends ⊢
  rwa [Engine.resolveWith_sparing] at hends

theorem SiftedTo.collected_eq (h : t.SiftedTo u) (hkeyed : t.Keyed)
    (hids : (t.opinions.map (·.id)).Nodup) (key? : SignerId → Option PublicKey)
    (asOf : Instant) (ids : List StatementId) :
    (u.contentWith (h.keyed hkeyed) key?).collected asOf ids =
      (t.contentWith hkeyed key?).collected asOf ids := by
  have hsame : ∀ id, (u.contentWith (h.keyed hkeyed) key?).statement? id =
      (t.contentWith hkeyed key?).statement? id := by
    intro id
    calc (u.content (h.keyed hkeyed)).statement? id
      _ = u.statement? id := statement?_content _ id
      _ = t.statement? id := by rw [h.statement?_eq hkeyed]
      _ = (t.content hkeyed).statement? id := (statement?_content _ id).symm
  unfold Content.collected
  simp only [hsame]
  refine List.map_congr_left ?_
  intro id hid
  -- Only on statements that are still stored are the same opinions known to be listed.
  have hstored : u.hasStatement id := by
    by_contra hgone
    have hnone := statement?_eq_none (Bool.eq_false_iff.mpr hgone)
    have hsome : ((u.content (h.keyed hkeyed)).statement? id).isSome := by
      have hkept := (List.mem_filter.mp hid).2
      rwa [← hsame id] at hkept
    rw [statement?_content, hnone] at hsome
    cases hsome
  have hopinions : (u.contentWith (h.keyed hkeyed) key?).opinions id =
      (t.contentWith hkeyed key?).opinions id := h.getOpinions_eq hids hstored
  rw [Testimony.inEffect_congr hopinions rfl]

theorem length_statements_content (h : t.Keyed) :
    (t.content h).statements.length = t.statements.countP (·.IsValid) := by
  have hstatements : (t.content h).statements =
      (t.statements.mergeSort StatementRow.scanOrder).filterMap fun row =>
        (row.toRecord.bind Statement.ofRecord).toOption := by
    change (decodeAll _).filterMap _ = _
    rw [decodeAll, List.filterMap_filterMap]
    refine List.filterMap_congr ?_
    intro row _
    cases row.toRecord <;> rfl
  rw [hstatements, List.length_filterMap_eq_countP, (List.mergeSort_perm _ _).countP_eq]
  refine List.countP_congr ?_
  intro row _
  rw [decide_eq_true_iff, StatementRow.isValid_iff]

theorem size_ofRecords (h : t.Keyed) :
    (Index.ofRecords t.scanStatements).size = t.statements.countP (·.IsValid) := by
  have hagrees : (Index.ofRecords t.scanStatements).Agrees (t.content h).held :=
    (t.content h).agrees_ofRecords
  rw [hagrees.size_eq, Content.held, Held.size_ofStatements (t.content h).statements_distinct,
    length_statements_content]

/-- Rows that cannot be decoded, are no valid statements or are out of range stay without effect on
anything else, whatever the index refers to. -/
theorem bad_rows_isolated {t : Tables} (hkeyed : t.Keyed) (hids : (t.opinions.map (·.id)).Nodup)
    (trust : SignerId → Float) (own : Option OwnKey) (ix : Index) :
    let n : Node Tables := ⟨{ service trust with own }, t, ix⟩
    (∃ listed, records.scanStatements t = (.answer listed, t) ∧
      ReadOff StatementRow.Reads (t.statements.filter (·.Decodes)) listed) ∧
    (∀ name first second, ∃ listed,
      records.findStatements name first second t = (.answer listed, t) ∧
      ReadOff StatementRow.Reads (t.statements.filter fun row =>
        (row.name = name && row.first = first && row.second = second) && row.Decodes) listed ∧
      listed.Pairwise (·.id ≤ ·.id)) ∧
    (∀ id, ∃ listed, records.getOpinions id t = (.answer listed, t) ∧
      ReadOff OpinionRow.Reads
        (t.opinions.filter fun row => row.statementId = id && row.InRange) listed ∧
      listed.Pairwise (·.id.val ≤ ·.id.val)) ∧
    (∃ ix' stored, n.refresh = (.ok (t.statements.countP (·.IsValid)), { n with index := ix' }) ∧
      ix'.Holds stored ∧
      ∀ id s, stored id = some s ↔ ∃ row ∈ t.statements, row.id = id ∧ row.StandsFor s) ∧
    ∀ d asOf, ∃ v, n.resolve d asOf = (.ok v, n) ∧
      ∀ u, t.SiftedTo u →
        ExceptT.run ((⟨records, t.keyring, trust⟩ : Engine Tables).resolve ix d asOf) u =
          (.ok v, u) := by
  intro n
  refine ⟨⟨_, rfl, readOff_scanStatements t⟩, ?_, ?_, ?_, ?_⟩
  · intro name first second
    exact ⟨_, rfl, readOff_findStatements t name first second⟩
  · intro id
    exact ⟨_, rfl, readOff_getOpinions t id⟩
  · refine ⟨Index.ofRecords t.scanStatements, t.statement?, ?_, holds_ofRecords hkeyed,
      fun id s => statement?_iff hkeyed⟩
    rw [← size_ofRecords hkeyed]
    rfl
  · intro d asOf
    have hown : ∀ signer, (keys.publicKeyFor signer).Answers (· = t) (t.publicKeyFor signer) := by
      rintro signer world rfl
      exact ⟨world, rfl, rfl⟩
    obtain ⟨after, hafter, hrun⟩ := Node.run_ends (n := n)
      (ends_resolve_tables hkeyed trust hown ix d asOf) rfl
    rw [hafter] at hrun
    refine ⟨_, hrun, ?_⟩
    intro u hu
    have hkept : ∀ signer, (t.keyring.publicKeyFor signer).Answers (· = u)
        (t.publicKeyFor signer) := by
      rintro signer world rfl
      exact ⟨world, rfl, rfl⟩
    obtain ⟨_, rfl, hrun'⟩ := ends_resolve_tables (hu.keyed hkeyed) trust hkept ix d asOf u rfl
    rw [hrun', hu.collected_eq hkeyed hids]

/-- The second statement has no bound in its cell, the third half a range, and the first opinion a
serial below zero. -/
def damaged : Tables where
  statements :=
    [⟨⟨2⟩, "spammer", "192.0.2.0/24", none, .text "ffffc0000200", .text "ffffc00002ff"⟩,
      ⟨⟨3⟩, "spammer", "192.0.2.5", none, .blob [0], .null⟩,
      ⟨⟨4⟩, "spammer", "192.0.2.5", none, .null, .text "ffffc0000205"⟩]
  opinions :=
    [⟨⟨1⟩, ⟨2⟩, ⟨9⟩, 0, 1, -1, 3, [], none⟩, ⟨⟨2⟩, ⟨2⟩, ⟨9⟩, 0, 1, 1, 3, [], none⟩]
  hints := []

example : damaged.statements.filter (·.IsValid) = damaged.statements.take 1 ∧
    damaged.opinions.filter (·.InRange) = damaged.opinions.drop 1 := by
  decide +kernel

end Tables
end Reputation.Store
