import Reputation.Proofs.Resolution.Paths
import Reputation.Proofs.Store.WeightSums
import Reputation.Proofs.Store.Runs
/-!
Hints. A verdict gives one weight to each statement that contributes to it, and noting the weights
sets the hints of just these statements.
-/
namespace Reputation

/-- The weights of a statement's contributions, added up in their order. -/
def Verdict.weightOn (v : Verdict) (id : StatementId) : Float :=
  ((v.contributionsTo id).map (·.weight)).foldl (· + ·) 0.0

theorem Verdict.storedReal_weightOn {v : Verdict} {trust : SignerId → Float}
    (hweight : ∀ k ∈ v.contributing, k.weight = usableWeight (trust k.signerId))
    (id : StatementId) : Store.storedReal (v.weightOn id) = some (v.weightOn id) := by
  have hweights : (v.contributionsTo id).map (·.weight) =
      (v.contributionsTo id).map fun k => usableWeight (trust k.signerId) :=
    List.map_congr_left fun k hk => hweight k (List.mem_of_mem_filter hk)
  apply storedReal_of_upright
  rw [weightOn, hweights]
  exact upright_foldl_usableWeight _ _ .zero

theorem getElem?_foldl_weights (cs : List Contribution) (id : StatementId)
    (m : Std.TreeMap StatementId Float) :
    (cs.foldl (fun m c => m.insert c.statementId (m.getD c.statementId 0.0 + c.weight)) m)[id]? =
      if cs.filter (·.statementId = id) = [] then m[id]?
      else some (((cs.filter (·.statementId = id)).map (·.weight)).foldl (· + ·)
        (m.getD id 0.0)) := by
  induction cs generalizing m with
  | nil => simp
  | cons c cs ih =>
    rw [List.foldl_cons, ih]
    by_cases hid : c.statementId = id
    · subst hid
      by_cases hrest : cs.filter (·.statementId = c.statementId) = []
      · simp [hrest]
      · simp [hrest]
    · simp [hid, Std.TreeMap.getElem?_insert, Std.TreeMap.getD_insert]

theorem Verdict.getElem?_statementWeights (v : Verdict) (id : StatementId) :
    v.statementWeights[id]? = if v.contributionsTo id = [] then none else some (v.weightOn id) := by
  unfold statementWeights contributionsTo weightOn
  rw [getElem?_foldl_weights]
  simp [contributionsTo]

namespace Store.Tables

variable {t : Tables} {used : Int64} {id other : StatementId} {weight : Float}

theorem hasStatement_recordHint (t : Tables) (used : Int64) (id other : StatementId)
    (weight : Float) : (t.recordHint used id weight).hasStatement other = t.hasStatement other := by
  obtain ⟨hints, heq, -⟩ := recordHint_tables t used id weight
  rw [heq]
  rfl

theorem filter_recordHint (hne : id ≠ other) :
    (t.recordHint used id weight).hints.filter (·.statementId = other) =
      t.hints.filter (·.statementId = other) := by
  unfold recordHint
  dsimp only
  split
  · rfl
  · split
    · induction t.hints with
      | nil => rfl
      | cons h hints ih =>
        rw [List.map_cons, List.filter_cons, List.filter_cons, ih]
        by_cases hid : h.statementId = id
        · simp [hid, hne]
        · simp [hid]
    · simp [List.filter_append, hne]

theorem find?_recordHint (hstored : t.hasStatement id) :
    (t.recordHint used id weight).hints.find? (·.statementId = id) =
      some ⟨id, some used, storedReal weight⟩ := by
  unfold recordHint
  simp only [hstored, Bool.not_true, Bool.false_eq_true, if_false]
  split
  · rename_i hany
    have hkept : ((fun row : HintRow => decide (row.statementId = id)) ∘ fun h =>
        if h.statementId = id then ⟨id, some used, storedReal weight⟩ else h) =
        fun h => decide (h.statementId = id) := by
      funext h
      by_cases hid : h.statementId = id
      · simp [hid]
      · simp [hid]
    obtain ⟨old, hold⟩ := Option.isSome_iff_exists.mp
      (List.find?_isSome.mpr (List.any_eq_true.mp hany))
    rw [List.find?_map, hkept, hold, Option.map_some, if_pos]
    simpa using List.find?_some hold
  · rename_i hnone
    have hnew : t.hints.find? (·.statementId = id) = none := by
      simpa using hnone
    simp [List.find?_append, hnew]

theorem filter_foldl_recordHint {entries : List (StatementId × Float)}
    (hother : ∀ entry ∈ entries, entry.1 ≠ other) :
    (entries.foldl (fun t (id, weight) => t.recordHint used id weight) t).hints.filter
        (·.statementId = other) =
      t.hints.filter (·.statementId = other) := by
  induction entries generalizing t with
  | nil => rfl
  | cons entry entries ih =>
    rw [List.foldl_cons, ih fun e he => hother e (List.mem_cons_of_mem _ he)]
    exact filter_recordHint (hother entry List.mem_cons_self)

theorem find?_foldl_recordHint (used : Int64) {entries : List (StatementId × Float)}
    (hdistinct : (entries.map (·.1)).Nodup) (hentry : (id, weight) ∈ entries)
    (hstored : t.hasStatement id) :
    (entries.foldl (fun t (id, weight) => t.recordHint used id weight) t).hints.find?
        (·.statementId = id) =
      some ⟨id, some used, storedReal weight⟩ := by
  induction entries generalizing t with
  | nil => cases hentry
  | cons entry entries ih =>
    obtain ⟨hfresh, hdistinct⟩ := List.nodup_cons.mp hdistinct
    rw [List.foldl_cons]
    obtain rfl | hentry := List.mem_cons.mp hentry
    · -- No later entry is about this statement.
      have hrest : ∀ e ∈ entries, e.1 ≠ id := by
        rintro e he rfl
        exact hfresh (List.mem_map.mpr ⟨e, he, rfl⟩)
      rw [← List.head?_filter, filter_foldl_recordHint hrest, List.head?_filter]
      exact find?_recordHint hstored
    · exact ih hdistinct hentry (by rwa [hasStatement_recordHint])

theorem filter_recordHints {weights : Std.TreeMap StatementId Float} {usedAt : Instant}
    (hnone : weights[id]? = none) :
    (t.recordHints weights usedAt).hints.filter (·.statementId = id) =
      t.hints.filter (·.statementId = id) := by
  apply filter_foldl_recordHint
  rintro ⟨key, weight⟩ hentry rfl
  rw [Std.TreeMap.mem_toList_iff_getElem?_eq_some, hnone] at hentry
  cases hentry

theorem getHints_recordHints {weights : Std.TreeMap StatementId Float} {usedAt : Instant}
    (hweight : weights[id]? = some weight) (hstored : t.hasStatement id) :
    (t.recordHints weights usedAt).getHints id =
      .ok ⟨some usedAt.wholeSecond, storedReal weight⟩ := by
  have hdistinct : (weights.toList.map (·.1)).Nodup := by
    rw [Std.TreeMap.map_fst_toList_eq_keys]
    exact Std.TreeMap.nodup_keys
  have hentry : (id, weight) ∈ weights.toList :=
    Std.TreeMap.mem_toList_iff_getElem?_eq_some.mpr hweight
  have hfound := find?_foldl_recordHint (Int64.ofInt usedAt.seconds) hdistinct hentry hstored
  have hsecond : Instant.ofSeconds? usedAt.seconds = some usedAt.wholeSecond := by
    rw [Instant.ofSeconds?, Instant.ofParts?, dif_pos]
    · rfl
    · exact ⟨usedAt.seconds_ge, usedAt.seconds_le, by decide, by omega⟩
  unfold getHints recordHints
  rw [hfound]
  simp only [toInt_ofInt_seconds, hsecond]

end Store.Tables
end Reputation
