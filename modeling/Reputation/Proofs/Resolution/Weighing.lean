import Reputation.Resolution.Aggregation
import Mathlib.Data.List.Perm.Basic
/-!
The order of contributions. By statement and signer the contributions to a verdict are in strict
order, so a verdict depends on which contributions there are and on nothing else.
-/
namespace Reputation

namespace Contribution

/-- Strictly before, by statement and then by signer. -/
def Precedes (a b : Contribution) : Prop :=
  a.statementId < b.statementId ∨ (a.statementId = b.statementId ∧ a.signerId < b.signerId)

theorem precedes_iff (a b : Contribution) :
    a.Precedes b ↔ a.statementId.val.toInt < b.statementId.val.toInt ∨
      (a.statementId.val.toInt = b.statementId.val.toInt ∧
        a.signerId.val.toInt < b.signerId.val.toInt) := by
  rw [Precedes, StatementId.lt_iff, StatementId.eq_iff, SignerId.lt_iff]

theorem upTo_iff (a b : Contribution) :
    a.upTo b ↔ a.statementId.val.toInt < b.statementId.val.toInt ∨
      (a.statementId.val.toInt = b.statementId.val.toInt ∧
        a.signerId.val.toInt ≤ b.signerId.val.toInt) := by
  simp only [upTo, Bool.or_eq_true, Bool.and_eq_true, decide_eq_true_eq, StatementId.lt_iff,
    StatementId.eq_iff, SignerId.le_iff]

theorem upTo_trans (a b c : Contribution) (h : a.upTo b) (k : b.upTo c) : a.upTo c := by
  rw [upTo_iff] at *
  omega

theorem upTo_total (a b : Contribution) : a.upTo b || b.upTo a := by
  rw [Bool.or_eq_true, upTo_iff, upTo_iff]
  omega

theorem precedes_asymm {a b : Contribution} (h : a.Precedes b) : ¬ b.Precedes a := by
  rw [precedes_iff] at *
  omega

theorem precedes_of_upTo {a b : Contribution} (h : a.upTo b)
    (hne : ¬ (a.statementId = b.statementId ∧ a.signerId = b.signerId)) : a.Precedes b := by
  rw [StatementId.eq_iff, SignerId.eq_iff] at hne
  rw [upTo_iff] at h
  rw [precedes_iff]
  omega

theorem pairwise_precedes_mergeSort {cs : List Contribution}
    (h : cs.Pairwise fun a b => ¬ (a.statementId = b.statementId ∧ a.signerId = b.signerId)) :
    (cs.mergeSort upTo).Pairwise Precedes := by
  have hsorted : (cs.mergeSort upTo).Pairwise fun a b => a.upTo b :=
    List.pairwise_mergeSort upTo_trans upTo_total cs
  have hdistinct : (cs.mergeSort upTo).Pairwise fun a b =>
      ¬ (a.statementId = b.statementId ∧ a.signerId = b.signerId) := by
    refine ((List.mergeSort_perm cs upTo).pairwise_iff ?_).mpr h
    intro a b hne heq
    exact hne ⟨heq.1.symm, heq.2.symm⟩
  exact List.Pairwise.imp₂ (fun _ _ hle hne => precedes_of_upTo hle hne) hsorted hdistinct

/-- Contributions in strict order are determined by which there are. -/
theorem eq_of_pairwise_precedes {cs ds : List Contribution} (hc : cs.Pairwise Precedes)
    (hd : ds.Pairwise Precedes) (hmem : ∀ k, k ∈ cs ↔ k ∈ ds) : cs = ds := by
  have hnodup : ∀ {xs : List Contribution}, xs.Pairwise Precedes → xs.Nodup := by
    intro xs h
    refine h.imp ?_
    rintro a _ hab rfl
    exact precedes_asymm hab hab
  refine List.Perm.eq_of_pairwise ?_ hc hd ?_
  · intro a b _ _ hab hba
    exact absurd hba (precedes_asymm hab)
  · exact (List.perm_ext_iff_of_nodup (hnodup hc) (hnodup hd)).mpr hmem

theorem filter_signer {ks : List Contribution} {k : Contribution}
    (h : ks.Pairwise Precedes)
    (hone : ∀ x ∈ ks, x.statementId = k.statementId) (hk : k ∈ ks) :
    ks.filter (·.signerId = k.signerId) = [k] := by
  have hirrefl : ∀ {a b : Contribution}, a ∈ ks → b ∈ ks → a.Precedes b →
      a.signerId ≠ b.signerId := by
    intro a b ha hb hab heq
    rw [Precedes, hone a ha, hone b hb, heq] at hab
    rcases hab with hlt | ⟨-, hlt⟩
    · exact Int64.lt_irrefl hlt
    · exact Int64.lt_irrefl hlt
  obtain ⟨front, back, rfl⟩ := List.append_of_mem hk
  obtain ⟨-, hback, hcross⟩ := List.pairwise_append.mp h
  have hfront : front.filter (·.signerId = k.signerId) = [] := by
    rw [List.filter_eq_nil_iff]
    intro a ha
    have hak := hcross a ha k List.mem_cons_self
    simpa using hirrefl (by simp [ha]) (by simp) hak
  have hrest : back.filter (·.signerId = k.signerId) = [] := by
    rw [List.filter_eq_nil_iff]
    intro b hb
    have hkb := (List.pairwise_cons.mp hback).1 b hb
    simpa using (hirrefl (by simp) (by simp [hb]) hkb).symm
  simp [hfront, hrest]

end Contribution

def Verdict.weighing (entity : String) (asOf : Instant) (contributing : List Contribution) :
    Verdict :=
  let (sum, total) := weightedTotals contributing
  if total == 0.0 then { Verdict.ofNoData entity asOf with contributing }
  else ⟨entity, asOf, sum / total, false, contributing⟩

theorem Verdict.weighing_contributing (entity : String) (asOf : Instant)
    (contributing : List Contribution) :
    (weighing entity asOf contributing).contributing = contributing := by
  unfold weighing
  dsimp only
  split <;> rfl

/-- What opinions on several statements contribute, statement by statement. -/
def contributions (trust : SignerId → Float) (collected : List (StatementId × List Opinion)) :
    List Contribution :=
  collected.flatMap fun (id, opinions) => opinions.map (Contribution.ofOpinion trust id)

theorem aggregate_eq (entity : String) (asOf : Instant)
    (collected : List (StatementId × List Opinion)) (trust : SignerId → Float) :
    aggregate entity asOf collected trust =
      .weighing entity asOf ((contributions trust collected).mergeSort Contribution.upTo) :=
  rfl

theorem mem_contributions {trust : SignerId → Float}
    {collected : List (StatementId × List Opinion)} {k : Contribution} :
    k ∈ contributions trust collected ↔
      ∃ entry ∈ collected, ∃ o ∈ entry.2, Contribution.ofOpinion trust entry.1 o = k := by
  simp [contributions]

theorem pairwise_contributions {trust : SignerId → Float}
    {collected : List (StatementId × List Opinion)}
    (hids : collected.Pairwise fun a b => a.1 ≠ b.1)
    (hsigners : ∀ entry ∈ collected,
      entry.2.Pairwise fun a b => a.body.signerId ≠ b.body.signerId) :
    (contributions trust collected).Pairwise fun a b =>
      ¬ (a.statementId = b.statementId ∧ a.signerId = b.signerId) := by
  unfold contributions
  rw [List.pairwise_flatMap]
  constructor
  · intro entry hentry
    rw [List.pairwise_map]
    exact (hsigners entry hentry).imp fun hne heq => hne heq.2
  · refine hids.imp ?_
    intro a b hne x hx y hy heq
    obtain ⟨o, -, rfl⟩ := List.mem_map.mp hx
    obtain ⟨p, -, rfl⟩ := List.mem_map.mp hy
    exact hne heq.1

end Reputation
