import Reputation.Proofs.Address.Bound
import Reputation.Proofs.Entity.RoundTrip
import Reputation.Proofs.Store.Tables
import Reputation.Store.Schema
/-!
What the tables keep to over every run of writes. Keys stay unique, opinions and hints refer to
stored statements, and every row is the row of some statement whose entities a node comes by; the
bounds of a row are therefore those of the entity that its first label reads as.
-/
namespace Reputation.Store

/-- What a store is asked to write or to remove. -/
inductive Write where
  | statement (s : NewStatement)
  | opinion (o : SignedOpinion)
  | purge (id : StatementId)
  | hints (weights : Std.TreeMap StatementId Float) (usedAt : Instant)

def Write.Obtained : Write → Prop
  | statement s => s.Obtained
  | _ => True

namespace StatementRow

theorem key_ofNew (id id' : StatementId) (s : NewStatement) :
    (ofNew id s).key = (ofNew id' s).key := rfl

/-- The bounds of the row are those of the entity that its first label reads as, in canonical text
and in order, or there are none where that entity has none. -/
def BoundsFit (r : StatementRow) : Prop :=
  ∃ e, Entity.parse r.first = .ok e ∧
    match e.range? with
    | none => r.lower = .null ∧ r.upper = .null
    | some q => q.min ≤ q.max ∧
      r.lower = .text q.min.text ∧ Bound.IsCanonical q.min.text ∧
      r.upper = .text q.max.text ∧ Bound.IsCanonical q.max.text

theorem boundsFit_ofNew (id : StatementId) {s : NewStatement} (h : s.Obtained) :
    (ofNew id s).BoundsFit := by
  refine ⟨s.first, h.first.parse_label, ?_⟩
  cases hrange : s.first.range? with
  | none => simp [ofNew, NewStatement.range?, hrange, Cell.ofBound]
  | some q =>
    refine ⟨Entity.range?_inOrder hrange, ?_, q.min.isCanonical_text, ?_, q.max.isCanonical_text⟩
    · simp [ofNew, NewStatement.range?, hrange, Cell.ofBound]
    · simp [ofNew, NewStatement.range?, hrange, Cell.ofBound]

end StatementRow

namespace Tables

def write (t : Tables) : Write → Tables
  | .statement s => (t.insertStatement s).2
  | .opinion o => (t.insertOpinion o).2
  | .purge id => (t.purge id).2
  | .hints weights usedAt => t.recordHints weights usedAt

def run (t : Tables) (ws : List Write) : Tables := ws.foldl write t

structure Sound (t : Tables) : Prop where
  keyed : t.Keyed
  statement_keys : (t.statements.map (·.key)).Nodup
  opinion_keys : (t.opinions.map (·.key)).Nodup
  opinions_refer : ∀ o ∈ t.opinions, t.hasStatement o.statementId
  hints_refer : ∀ n ∈ t.hints, t.hasStatement n.statementId
  origin : ∀ r ∈ t.statements, ∃ s : NewStatement, s.Obtained ∧ r = .ofNew r.id s

/-- What holds whatever is written: numbers of statements are distinct, and opinions refer to stored
statements. -/
structure Filed (t : Tables) : Prop where
  keyed : t.Keyed
  opinions_refer : ∀ o ∈ t.opinions, t.hasStatement o.statementId

theorem filed_empty : empty.Filed where
  keyed := List.nodup_nil
  opinions_refer := by simp [empty]

theorem Sound.filed {t : Tables} (h : t.Sound) : t.Filed := ⟨h.keyed, h.opinions_refer⟩

theorem sound_empty : empty.Sound where
  keyed := List.nodup_nil
  statement_keys := List.nodup_nil
  opinion_keys := List.nodup_nil
  opinions_refer := by simp [empty]
  hints_refer := by simp [empty]
  origin := by simp [empty]

theorem nodup_map_snoc {α β : Type} {f : α → β} {xs : List α} {x : α} (h : (xs.map f).Nodup)
    (hx : ∀ y ∈ xs, f y ≠ f x) : ((xs ++ [x]).map f).Nodup := by
  rw [List.map_append, List.nodup_append]
  refine ⟨h, List.nodup_singleton _, ?_⟩
  intro a ha b hb
  obtain ⟨y, hy, rfl⟩ := List.mem_map.mp ha
  obtain rfl := List.mem_singleton.mp hb
  exact hx y hy

theorem hasStatement_iff {t : Tables} {id : StatementId} :
    t.hasStatement id ↔ ∃ r ∈ t.statements, r.id = id := by
  simp [hasStatement]

theorem hasStatement_snoc {t : Tables} {id : StatementId} (h : t.hasStatement id)
    (row : StatementRow) : hasStatement { t with statements := t.statements ++ [row] } id := by
  obtain ⟨r, hr, hid⟩ := hasStatement_iff.mp h
  exact hasStatement_iff.mpr ⟨r, List.mem_append_left _ hr, hid⟩

theorem Filed.addStatement {t : Tables} (h : t.Filed) {row : StatementRow}
    (hid : t.hasStatement row.id = false) :
    Filed { t with statements := t.statements ++ [row] } where
  keyed := nodup_map_snoc h.keyed (hasStatement_eq_false.mp hid)
  opinions_refer o ho := hasStatement_snoc (h.opinions_refer o ho) row

theorem Sound.addStatement {t : Tables} (h : t.Sound) {row : StatementRow}
    (hid : t.hasStatement row.id = false) (hkey : ∀ r ∈ t.statements, r.key ≠ row.key)
    (horigin : ∃ s : NewStatement, s.Obtained ∧ row = .ofNew row.id s) :
    Sound { t with statements := t.statements ++ [row] } where
  keyed := (h.filed.addStatement hid).keyed
  statement_keys := nodup_map_snoc h.statement_keys hkey
  opinion_keys := h.opinion_keys
  opinions_refer := (h.filed.addStatement hid).opinions_refer
  hints_refer n hn := hasStatement_snoc (h.hints_refer n hn) row
  origin r hr := by
    rcases List.mem_append.mp hr with hr | hr
    · exact h.origin r hr
    · obtain rfl := List.mem_singleton.mp hr
      exact horigin

theorem insertStatement_tables (t : Tables) (s : NewStatement) :
    (t.insertStatement s).2 = (t.storeRow s).2 := by
  unfold insertStatement
  rcases t.storeRow s with ⟨e | row, after⟩ <;> rfl

/-- Whatever comes of it, storing a statement adds at most one row, under a fresh number and a key
that were free. -/
theorem storeRow_tables (t : Tables) (s : NewStatement) :
    (t.storeRow s).2 = t ∨ ∃ row : StatementRow,
      row = .ofNew ⟨freshId (t.statements.map (·.id.val))⟩ s ∧
      t.hasStatement row.id = false ∧ (∀ r ∈ t.statements, r.key ≠ row.key) ∧
      (t.storeRow s).2 = { t with statements := t.statements ++ [row] } := by
  unfold storeRow
  dsimp only
  split
  · split <;> exact .inl rfl
  · rename_i hkey
    split
    · exact .inl rfl
    · rename_i hid
      refine .inr ⟨_, rfl, by simpa using hid, ?_, rfl⟩
      simpa [StatementRow.key_ofNew _ ⟨0⟩] using hkey

theorem Keyed.insertStatement {t : Tables} (h : t.Keyed) (s : NewStatement) :
    (t.insertStatement s).2.Keyed := by
  rw [insertStatement_tables]
  obtain hsame | ⟨row, -, hid, -, hadded⟩ := storeRow_tables t s
  · rw [hsame]
    exact h
  · rw [hadded]
    exact nodup_map_snoc h (hasStatement_eq_false.mp hid)

theorem Filed.insertStatement {t : Tables} (h : t.Filed) (s : NewStatement) :
    (t.insertStatement s).2.Filed := by
  rw [insertStatement_tables]
  obtain hsame | ⟨row, -, hid, -, hadded⟩ := storeRow_tables t s
  · rw [hsame]
    exact h
  · rw [hadded]
    exact h.addStatement hid

theorem Sound.insertStatement {t : Tables} (h : t.Sound) {s : NewStatement} (hs : s.Obtained) :
    (t.insertStatement s).2.Sound := by
  rw [insertStatement_tables]
  obtain hsame | ⟨row, rfl, hid, hkey, hadded⟩ := storeRow_tables t s
  · rw [hsame]
    exact h
  · rw [hadded]
    exact h.addStatement hid hkey ⟨s, hs, rfl⟩

theorem insertOpinion_tables (t : Tables) (o : SignedOpinion) :
    (t.insertOpinion o).2 = t ∨ ∃ row : OpinionRow, t.hasStatement row.statementId ∧
      (∀ r ∈ t.opinions, r.key ≠ row.key) ∧
      (t.insertOpinion o).2 = { t with opinions := t.opinions ++ [row] } := by
  have hcases := insertOpinion_outcome t o
  generalize t.insertOpinion o = after at hcases ⊢
  cases hcases with
  | added hid hkey hstatement => exact .inr ⟨t.rowFor o, hstatement, hkey, rfl⟩
  | _ => exact .inl rfl

theorem Filed.insertOpinion {t : Tables} (h : t.Filed) (o : SignedOpinion) :
    (t.insertOpinion o).2.Filed := by
  obtain hsame | ⟨row, hstatement, -, hadded⟩ := insertOpinion_tables t o
  · rw [hsame]
    exact h
  · rw [hadded]
    refine ⟨h.keyed, ?_⟩
    intro r hr
    rcases List.mem_append.mp hr with hr | hr
    · exact h.opinions_refer r hr
    · obtain rfl := List.mem_singleton.mp hr
      exact hstatement

theorem Sound.insertOpinion {t : Tables} (h : t.Sound) (o : SignedOpinion) :
    (t.insertOpinion o).2.Sound := by
  have hfiled := h.filed.insertOpinion o
  obtain hsame | ⟨row, -, hkey, hadded⟩ := insertOpinion_tables t o
  · rw [hsame]
    exact h
  · rw [hadded] at hfiled ⊢
    exact { h with
      opinion_keys := nodup_map_snoc h.opinion_keys hkey
      opinions_refer := hfiled.opinions_refer }

theorem hasStatement_purge {t : Tables} {id other : StatementId} (h : t.hasStatement other)
    (hne : other ≠ id) : (t.purge id).2.hasStatement other := by
  obtain ⟨r, hr, rfl⟩ := hasStatement_iff.mp h
  exact hasStatement_iff.mpr ⟨r, List.mem_filter.mpr ⟨hr, by simpa using hne⟩, rfl⟩

theorem Filed.purge {t : Tables} (h : t.Filed) (id : StatementId) : (t.purge id).2.Filed where
  keyed := (List.filter_sublist.map _).nodup h.keyed
  -- What referred to the statement went with it, so what is left refers to another one.
  opinions_refer o ho := by
    obtain ⟨ho, hne⟩ := List.mem_filter.mp ho
    exact hasStatement_purge (h.opinions_refer o ho) (by simpa using hne)

theorem Sound.purge {t : Tables} (h : t.Sound) (id : StatementId) : (t.purge id).2.Sound where
  keyed := (h.filed.purge id).keyed
  statement_keys := (List.filter_sublist.map _).nodup h.statement_keys
  opinion_keys := (List.filter_sublist.map _).nodup h.opinion_keys
  opinions_refer := (h.filed.purge id).opinions_refer
  hints_refer n hn := by
    obtain ⟨hn, hne⟩ := List.mem_filter.mp hn
    exact hasStatement_purge (h.hints_refer n hn) (by simpa using hne)
  origin r hr := h.origin r (List.mem_of_mem_filter hr)

theorem recordHint_tables (t : Tables) (used : Int64) (id : StatementId) (weight : Float) :
    ∃ hints, t.recordHint used id weight = { t with hints } ∧
      ∀ n ∈ hints, n ∈ t.hints ∨ t.hasStatement n.statementId := by
  unfold recordHint
  dsimp only
  split
  · exact ⟨t.hints, rfl, fun n hn => .inl hn⟩
  · rename_i hstatement
    have hrefers : t.hasStatement id := by simpa using hstatement
    split
    · refine ⟨_, rfl, ?_⟩
      intro n hn
      obtain ⟨n', hn', rfl⟩ := List.mem_map.mp hn
      split
      · exact .inr hrefers
      · exact .inl hn'
    · refine ⟨_, rfl, ?_⟩
      intro n hn
      rcases List.mem_append.mp hn with hn | hn
      · exact .inl hn
      · obtain rfl := List.mem_singleton.mp hn
        exact .inr hrefers

theorem recordHints_tables (t : Tables) (weights : Std.TreeMap StatementId Float)
    (usedAt : Instant) :
    ∃ hints, t.recordHints weights usedAt = { t with hints } ∧
      ∀ n ∈ hints, n ∈ t.hints ∨ t.hasStatement n.statementId := by
  unfold recordHints
  induction weights.toList generalizing t with
  | nil => exact ⟨t.hints, rfl, fun n hn => .inl hn⟩
  | cons entry entries ih =>
    obtain ⟨id, weight⟩ := entry
    obtain ⟨hints, heq, hrefer⟩ := recordHint_tables t (Int64.ofInt usedAt.seconds) id weight
    obtain ⟨hints', heq', hrefer'⟩ := ih { t with hints }
    refine ⟨hints', ?_, fun n hn => (hrefer' n hn).elim (hrefer n) .inr⟩
    rw [List.foldl_cons]
    simp only [heq, heq']

theorem Sound.recordHints {t : Tables} (h : t.Sound) (weights : Std.TreeMap StatementId Float)
    (usedAt : Instant) : (t.recordHints weights usedAt).Sound := by
  obtain ⟨hints, heq, hrefer⟩ := recordHints_tables t weights usedAt
  rw [heq]
  refine { h with hints_refer := ?_ }
  intro n hn
  rcases hrefer n hn with hold | hnew
  · exact h.hints_refer n hold
  · exact hnew

theorem Filed.write {t : Tables} (h : t.Filed) (w : Write) : (t.write w).Filed := by
  cases w with
  | statement s => exact h.insertStatement s
  | opinion o => exact h.insertOpinion o
  | purge id => exact h.purge id
  | hints weights usedAt =>
    obtain ⟨hints, heq, -⟩ := recordHints_tables t weights usedAt
    change (t.recordHints weights usedAt).Filed
    rw [heq]
    exact ⟨h.keyed, h.opinions_refer⟩

theorem Sound.write {t : Tables} (h : t.Sound) {w : Write} (hw : w.Obtained) :
    (t.write w).Sound := by
  cases w with
  | statement s => exact h.insertStatement hw
  | opinion o => exact h.insertOpinion o
  | purge id => exact h.purge id
  | hints weights usedAt => exact h.recordHints weights usedAt

theorem Filed.run {t : Tables} (h : t.Filed) (ws : List Write) : (t.run ws).Filed := by
  induction ws generalizing t with
  | nil => exact h
  | cons w ws ih => exact ih (h.write w)

theorem Sound.run {t : Tables} (h : t.Sound) {ws : List Write} (hws : ∀ w ∈ ws, w.Obtained) :
    (t.run ws).Sound := by
  induction ws generalizing t with
  | nil => exact h
  | cons w ws ih =>
    exact ih (h.write (hws w List.mem_cons_self)) fun w' hw' => hws w' (List.mem_cons_of_mem _ hw')

theorem Sound.boundsFit {t : Tables} (h : t.Sound) {r : StatementRow} (hr : r ∈ t.statements) :
    r.BoundsFit := by
  obtain ⟨s, hs, heq⟩ := h.origin r hr
  rw [heq]
  exact StatementRow.boundsFit_ofNew r.id hs

/-- Over every run on a new store the keys of statements and of opinions are unique, opinions and
hints refer to stored statements, and the bounds of a statement fit its first label. -/
theorem run_invariants {ws : List Write} (hws : ∀ w ∈ ws, w.Obtained) :
    ∃ t, Database.blank.load = .ok t ∧
      ((t.run ws).statements.map (·.key)).Nodup ∧
      ((t.run ws).opinions.map (·.key)).Nodup ∧
      (∀ o ∈ (t.run ws).opinions, ∃ r ∈ (t.run ws).statements, r.id = o.statementId) ∧
      (∀ n ∈ (t.run ws).hints, ∃ r ∈ (t.run ws).statements, r.id = n.statementId) ∧
      ∀ r ∈ (t.run ws).statements, r.BoundsFit := by
  have h := sound_empty.run hws
  exact ⟨empty, rfl, h.statement_keys, h.opinion_keys,
    fun o ho => hasStatement_iff.mp (h.opinions_refer o ho),
    fun n hn => hasStatement_iff.mp (h.hints_refer n hn), fun r hr => h.boundsFit hr⟩

def specimenDomain : NewStatement := ⟨"spammer", .domain "example.com", none⟩

def specimenNetwork : NewStatement :=
  ⟨"abuse", .network ⟨.v4 ⟨0x0a000000, by decide⟩, 8⟩, none⟩

theorem specimenDomain_obtained : specimenDomain.Obtained where
  first := .parsed (s := "example.com") rfl
  second e he := by cases he

theorem specimenNetwork_obtained : specimenNetwork.Obtained where
  first := .parsed (s := "10.0.0.0/8") rfl
  second e he := by cases he

/-- A domain is stored and a network, each with an opinion and the latter with a hint; then all is
written again, and the domain is removed. -/
def specimenWrites : List Write :=
  let once : List Write := [.statement specimenDomain, .statement specimenNetwork,
    .opinion ⟨specimenBody, []⟩, .opinion ⟨{ specimenBody with statementId := ⟨1⟩ }, []⟩,
    .hints ((∅ : Std.TreeMap StatementId Float).insert ⟨2⟩ 1) .epoch]
  once ++ once ++ [.purge ⟨1⟩]

theorem specimenWrites_obtained : ∀ w ∈ specimenWrites, w.Obtained := by
  simp [specimenWrites, Write.Obtained, specimenDomain_obtained, specimenNetwork_obtained]

theorem run_invariants_specimen :
    ∃ t, Database.blank.load = .ok t ∧
      (t.run specimenWrites).statements = [.ofNew ⟨2⟩ specimenNetwork] ∧
      (t.run specimenWrites).opinions.map (·.statementId) = [⟨2⟩] ∧
      (t.run specimenWrites).hints.map (·.statementId) = [⟨2⟩] ∧
      ∀ r ∈ (t.run specimenWrites).statements, r.BoundsFit := by
  obtain ⟨t, hload, -, -, -, -, hbounds⟩ := run_invariants specimenWrites_obtained
  obtain rfl : empty = t := Except.ok.inj hload
  exact ⟨empty, hload, by decide +kernel, by decide +kernel, by decide +kernel, hbounds⟩

end Tables
end Reputation.Store
