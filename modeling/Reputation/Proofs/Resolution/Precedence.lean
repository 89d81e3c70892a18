import Reputation.Proofs.Resolution.Reading
import Mathlib.Data.List.Induction
/-!
Which opinion of a signer prevails. Going through opinions in any order, one keeps for each signer
the opinion of greatest rank, and of equally ranked ones the first.
-/
namespace Reputation

namespace Opinion

theorem supersedes_iff (a b : Opinion) :
    a.supersedes b ↔ b.body.serial < a.body.serial ∨
      (a.body.serial = b.body.serial ∧ a.signature < b.signature) := by
  simp [supersedes]

theorem supersedes_trans {a b c : Opinion} (h : a.supersedes b) (k : b.supersedes c) :
    a.supersedes c := by
  rw [supersedes_iff] at *
  rcases h with h | ⟨hs, h⟩ <;> rcases k with k | ⟨ks, k⟩
  · exact Or.inl (UInt32.lt_trans k h)
  · exact Or.inl (ks ▸ h)
  · exact Or.inl (hs ▸ k)
  · exact Or.inr ⟨hs.trans ks, List.lt_trans h k⟩

theorem supersedes_of_not_supersedes {a b c : Opinion} (h : a.supersedes b)
    (k : ¬ c.supersedes b) : a.supersedes c := by
  rw [supersedes_iff] at *
  obtain ⟨kserial, ksig⟩ := not_or.mp k
  rcases UInt32.lt_or_eq_of_le (UInt32.not_lt.mp kserial) with hlt | heq
  · rcases h with h | ⟨hs, h⟩
    · exact Or.inl (UInt32.lt_trans hlt h)
    · exact Or.inl (hs ▸ hlt)
  · rcases h with h | ⟨hs, h⟩
    · exact Or.inl (heq ▸ h)
    · refine Or.inr ⟨hs.trans heq.symm, ?_⟩
      by_contra hle
      exact ksig ⟨heq, List.lt_of_le_of_lt (List.not_lt.mp hle) h⟩

/-- The opinion of the signer in the list that none of its others outranks, and the first such. -/
def Prevails (os : List Opinion) (signer : SignerId) (o : Opinion) : Prop :=
  o.body.signerId = signer ∧ ∃ front back, os = front ++ o :: back ∧
    (∀ p ∈ front, p.body.signerId = signer → o.supersedes p) ∧
    ∀ p ∈ back, p.body.signerId = signer → ¬ p.supersedes o

theorem prevails_unique {os : List Opinion} {signer : SignerId} {o p : Opinion}
    (h : Prevails os signer o) (k : Prevails os signer p) : o = p := by
  obtain ⟨ho, front, back, hsplit, hf, hb⟩ := h
  obtain ⟨hp, front', back', hsplit', hf', hb'⟩ := k
  rw [hsplit] at hsplit'
  rcases List.append_eq_append_iff.mp hsplit' with ⟨mid, hfront, hback⟩ | ⟨mid, hfront, hback⟩
  · cases mid with
    | nil => exact (List.cons.inj (by simpa using hback)).1
    | cons q mid =>
      obtain ⟨rfl, rfl⟩ := List.cons.inj hback
      exact absurd (hf' o (by simp [hfront]) ho) (hb p (by simp) hp)
  · cases mid with
    | nil => exact (List.cons.inj (by simpa using hback)).1.symm
    | cons q mid =>
      obtain ⟨rfl, rfl⟩ := List.cons.inj hback
      exact absurd (hf p (by simp [hfront]) hp) (hb' o (by simp) ho)

theorem Prevails.mem {os : List Opinion} {signer : SignerId} {o : Opinion}
    (h : Prevails os signer o) : o ∈ os := by
  obtain ⟨-, front, back, rfl, -⟩ := h
  simp

theorem Prevails.snoc {os : List Opinion} {signer : SignerId} {o x : Opinion}
    (h : Prevails os signer o) (hx : x.body.signerId = signer → ¬ x.supersedes o) :
    Prevails (os ++ [x]) signer o := by
  obtain ⟨ho, front, back, rfl, hf, hb⟩ := h
  refine ⟨ho, front, back ++ [x], by simp, hf, ?_⟩
  intro p hp
  rcases List.mem_append.mp hp with hp | hp
  · exact hb p hp
  · rw [List.mem_singleton.mp hp]
    exact hx

theorem prevails_last {os : List Opinion} {x : Opinion}
    (h : ∀ p ∈ os, p.body.signerId = x.body.signerId → x.supersedes p) :
    Prevails (os ++ [x]) x.body.signerId x :=
  ⟨rfl, os, [], rfl, h, by simp⟩

theorem Prevails.supersedes_all {os : List Opinion} {signer : SignerId} {o x : Opinion}
    (h : Prevails os signer o) (hx : x.supersedes o) :
    ∀ p ∈ os, p.body.signerId = signer → x.supersedes p := by
  obtain ⟨-, front, back, rfl, hf, hb⟩ := h
  intro p hp hsigner
  rcases List.mem_append.mp hp with hp | hp
  · exact supersedes_trans hx (hf p hp hsigner)
  · rcases List.mem_cons.mp hp with rfl | hp
    · exact hx
    · exact supersedes_of_not_supersedes hx (hb p hp hsigner)

end Opinion

namespace Latest

theorem getElem?_offer (latest : Latest) (x : Opinion) (signer : SignerId) :
    (latest.offer x)[signer]? =
      if x.body.signerId = signer then
        match latest[signer]? with
        | some o => if x.supersedes o then some x else some o
        | none => some x
      else latest[signer]? := by
  unfold offer
  by_cases hs : x.body.signerId = signer
  · subst hs
    cases hl : latest[x.body.signerId]? with
    | none => simp
    | some o => by_cases hx : x.supersedes o <;> simp [hx, hl]
  · cases hl : latest[x.body.signerId]? with
    | none => simp [Std.TreeMap.getElem?_insert, hs]
    | some o => by_cases hx : x.supersedes o <;> simp [hx, hs, Std.TreeMap.getElem?_insert]

def ofList (os : List Opinion) : Latest := os.foldl offer ∅

/-- One opinion after the other, the map holds what prevails among those seen so far. -/
theorem ofList_spec (os : List Opinion) (signer : SignerId) :
    match (ofList os)[signer]? with
    | some o => Opinion.Prevails os signer o
    | none => ∀ p ∈ os, p.body.signerId ≠ signer := by
  induction os using List.reverseRecOn with
  | nil => simp [ofList]
  | append_singleton os x ih =>
    have hstep : ofList (os ++ [x]) = (ofList os).offer x := by simp [ofList]
    rw [hstep, getElem?_offer]
    by_cases hs : x.body.signerId = signer
    · subst hs
      cases hl : (ofList os)[x.body.signerId]? with
      | none =>
        simp only [hl] at ih
        simpa using Opinion.prevails_last fun p hp hsigner => absurd hsigner (ih p hp)
      | some o =>
        simp only [hl] at ih
        by_cases hx : x.supersedes o
        · simpa [hx] using Opinion.prevails_last (ih.supersedes_all hx)
        · simpa [hx] using ih.snoc fun _ => hx
    · cases hl : (ofList os)[signer]? with
      | none =>
        simp only [hl] at ih
        simp only [hs, if_false]
        intro p hp
        rcases List.mem_append.mp hp with hp | hp
        · exact ih p hp
        · rw [List.mem_singleton.mp hp]
          exact hs
      | some o =>
        simp only [hl] at ih
        simpa only [hs, if_false, hl] using ih.snoc fun h => absurd h hs

theorem getElem?_ofList (os : List Opinion) (signer : SignerId) (o : Opinion) :
    (ofList os)[signer]? = some o ↔ Opinion.Prevails os signer o := by
  have hspec := ofList_spec os signer
  cases hl : (ofList os)[signer]? with
  | none =>
    simp only [hl] at hspec
    simpa using fun h => hspec o (Opinion.Prevails.mem h) h.1
  | some p =>
    simp only [hl] at hspec
    constructor
    · intro h
      exact Option.some.inj h ▸ hspec
    · intro h
      rw [Opinion.prevails_unique hspec h]

end Latest
end Reputation
