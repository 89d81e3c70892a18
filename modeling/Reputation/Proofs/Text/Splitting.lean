import Reputation.Text.Blank
import Mathlib.Data.List.DropRight
/-!
Taking texts apart. What was joined by a separator is split at it again, as long as the parts do not
contain it, and trimming takes away white space only.
-/
namespace Reputation.Text

theorem trimChars_eq_self {cs : List Char} (h : ∀ c ∈ cs, isBlank c = false) :
    trimChars cs = cs := by
  have hkeep : ∀ ds : List Char, (∀ c ∈ ds, isBlank c = false) → ds.dropWhile isBlank = ds := by
    intro ds hds
    cases ds with
    | nil => rfl
    | cons d ds => simp [hds d List.mem_cons_self]
  rw [trimChars, trimStart, hkeep cs h, trimEnd, hkeep cs.reverse (by simpa using h),
    List.reverse_reverse]

theorem trim_eq_self {s : String} (h : ∀ c ∈ s.toList, isBlank c = false) : trim s = s := by
  rw [trim, trimChars_eq_self h, String.ofList_toList]

theorem trim_ne_empty {s : String} {c : Char} (hc : c ∈ s.toList) (hblank : isBlank c = false) :
    trim s ≠ "" := by
  intro hempty
  have htrimmed : trimChars s.toList = [] := by simpa [trim] using congrArg String.toList hempty
  have hall : ∀ d ∈ trimStart s.toList, isBlank d = true := List.rdropWhile_eq_nil_iff.mp htrimmed
  have hnone : trimStart s.toList = [] := by
    have hkept : trimStart (trimStart s.toList) = trimStart s.toList :=
      List.dropWhile_idempotent isBlank s.toList
    rw [← hkept]
    exact List.dropWhile_eq_nil_iff.mpr hall
  exact absurd (List.dropWhile_eq_nil_iff.mp hnone c hc) (by simp [hblank])

/-- The part of a text that is left without the white space at its ends. -/
structure TrimsTo (cs core : List Char) : Prop where
  ends : ∃ before after, cs = before ++ core ++ after ∧
    (∀ c ∈ before, isBlank c) ∧ ∀ c ∈ after, isBlank c
  head : ∀ c, core.head? = some c → isBlank c = false
  last : ∀ c, core.getLast? = some c → isBlank c = false

theorem trimsTo_trimChars (cs : List Char) : TrimsTo cs (trimChars cs) where
  ends := by
    refine ⟨cs.takeWhile isBlank, (trimStart cs).rtakeWhile isBlank, ?_, ?_, ?_⟩
    · have hend : trimChars cs ++ (trimStart cs).rtakeWhile isBlank = trimStart cs :=
        List.rdropWhile_append_rtakeWhile
      rw [List.append_assoc, hend]
      exact List.takeWhile_append_dropWhile.symm
    · exact fun c hc => List.mem_takeWhile_imp hc
    · exact fun c hc => List.mem_rtakeWhile_imp hc
  head := by
    intro c hc
    obtain ⟨after, hafter⟩ : ∃ after, trimChars cs ++ after = cs.dropWhile isBlank :=
      List.rdropWhile_prefix isBlank (trimStart cs)
    have hnot := List.head?_dropWhile_not isBlank cs
    rwa [← hafter, List.head?_append, hc, Option.some_or] at hnot
  last := by
    intro c hc
    by_cases hne : trimChars cs = []
    · rw [hne] at hc
      cases hc
    · rw [List.getLast?_eq_some_getLast hne] at hc
      obtain rfl := Option.some.inj hc
      exact Bool.eq_false_iff.mpr (List.rdropWhile_last_not isBlank (trimStart cs) hne)

theorem dropStart?_append (start rest : List Char) :
    dropStart? start (start ++ rest) = some rest := by
  induction start with
  | nil => cases rest <;> rfl
  | cons c start ih => simpa [dropStart?] using ih

theorem eq_append_of_dropStart? {start cs rest : List Char} (h : dropStart? start cs = some rest) :
    cs = start ++ rest := by
  induction start generalizing cs with
  | nil => simpa [dropStart?] using h
  | cons c start ih =>
    cases cs with
    | nil => cases h
    | cons d cs =>
      unfold dropStart? at h
      split at h
      · rename_i heq
        rw [heq, ih h, List.cons_append]
      · cases h

theorem dropStart?_cons_of_ne {c d : Char} (h : c ≠ d) (start cs : List Char) :
    dropStart? (c :: start) (d :: cs) = none := by
  rw [dropStart?, if_neg h]

theorem dropStart?_eq_none {start cs : List Char} {c : Char} (hstart : c ∈ start) (h : c ∉ cs) :
    dropStart? start cs = none := by
  cases hdrop : dropStart? start cs with
  | none => rfl
  | some rest =>
    rw [eq_append_of_dropStart? hdrop] at h
    exact absurd (List.mem_append_left rest hstart) h

theorem splitAtFirst?_eq_none {sep : Char} {cs : List Char} (h : sep ∉ cs) :
    splitAtFirst? sep cs = none := by
  induction cs with
  | nil => rfl
  | cons c cs ih =>
    have hc : c ≠ sep := fun heq => h (heq ▸ List.mem_cons_self)
    rw [splitAtFirst?, if_neg hc, ih fun hcs => h (List.mem_cons_of_mem _ hcs)]
    rfl

theorem splitAtFirst?_append {sep : Char} {cs : List Char} (h : sep ∉ cs) (ds : List Char) :
    splitAtFirst? sep (cs ++ sep :: ds) = some (cs, ds) := by
  induction cs with
  | nil => simp [splitAtFirst?]
  | cons c cs ih =>
    have hc : c ≠ sep := fun heq => h (heq ▸ List.mem_cons_self)
    rw [List.cons_append, splitAtFirst?, if_neg hc, ih fun hcs => h (List.mem_cons_of_mem _ hcs)]
    rfl

theorem splitAtFirst?_eq_some {sep : Char} {cs a b : List Char}
    (h : splitAtFirst? sep cs = some (a, b)) : cs = a ++ sep :: b ∧ sep ∉ a := by
  induction cs generalizing a with
  | nil => cases h
  | cons c cs ih =>
    by_cases hc : c = sep
    · rw [splitAtFirst?, if_pos hc] at h
      cases h
      exact ⟨by rw [hc, List.nil_append], List.not_mem_nil⟩
    · rw [splitAtFirst?, if_neg hc] at h
      obtain ⟨⟨a', b'⟩, hrest, heq⟩ := Option.map_eq_some_iff.mp h
      cases heq
      obtain ⟨rfl, hnot⟩ := ih hrest
      exact ⟨rfl, List.not_mem_cons_of_ne_of_not_mem (Ne.symm hc) hnot⟩

theorem notMem_of_splitAtFirst?_eq_none {sep : Char} {cs : List Char}
    (h : splitAtFirst? sep cs = none) : sep ∉ cs := by
  intro hmem
  obtain ⟨a, b, rfl, ha⟩ := List.eq_append_cons_of_mem hmem
  rw [splitAtFirst?_append ha] at h
  cases h

theorem splitOnChar_eq_splitOn (sep : Char) (cs : List Char) :
    splitOnChar sep cs = cs.splitOn sep := by
  induction cs with
  | nil => rfl
  | cons c cs ih =>
    have hne : splitOnChar sep cs ≠ [] := ih ▸ List.splitOn_ne_nil sep cs
    rw [List.splitOn_eq_splitOnP, List.splitOnP_cons_eq_if_modifyHead, ← List.splitOn_eq_splitOnP,
      ← ih, splitOnChar]
    by_cases hc : c = sep
    · simp [hc]
    · simp only [hc, if_false, beq_iff_eq]
      cases hpieces : splitOnChar sep cs with
      | nil => exact absurd hpieces hne
      | cons p ps => rfl

theorem splitOnChar_ne_nil (sep : Char) (cs : List Char) : splitOnChar sep cs ≠ [] :=
  splitOnChar_eq_splitOn sep cs ▸ List.splitOn_ne_nil sep cs

theorem splitOnChar_append {sep : Char} {cs : List Char} (h : sep ∉ cs) (ds : List Char) :
    splitOnChar sep (cs ++ sep :: ds) = cs :: splitOnChar sep ds := by
  induction cs with
  | nil => simp [splitOnChar]
  | cons c cs ih =>
    have hc : c ≠ sep := fun heq => h (heq ▸ List.mem_cons_self)
    rw [List.cons_append, splitOnChar, if_neg hc, ih fun hcs => h (List.mem_cons_of_mem _ hcs)]

theorem splitOnChar_intercalate {sep : Char} {pieces : List (List Char)} (hne : pieces ≠ [])
    (h : ∀ p ∈ pieces, sep ∉ p) : splitOnChar sep ([sep].intercalate pieces) = pieces := by
  rw [splitOnChar_eq_splitOn, List.splitOn_intercalate sep h hne]

theorem splitOnChar_of_notMem {sep : Char} {cs : List Char} (h : sep ∉ cs) :
    splitOnChar sep cs = [cs] := by
  have hjoined : splitOnChar sep ([sep].intercalate [cs]) = [cs] :=
    splitOnChar_intercalate (List.cons_ne_nil _ _) (List.forall_mem_singleton.mpr h)
  rwa [List.intercalate_singleton] at hjoined

theorem forall_mem_intercalate {P : Char → Prop} {sep : List Char} (hsep : ∀ c ∈ sep, P c)
    {pieces : List (List Char)} (h : ∀ p ∈ pieces, ∀ c ∈ p, P c) :
    ∀ c ∈ sep.intercalate pieces, P c := by
  induction pieces with
  | nil => simp
  | cons p pieces ih =>
    have hp := h p List.mem_cons_self
    have hrest := ih fun q hq => h q (List.mem_cons_of_mem _ hq)
    cases pieces with
    | nil => simpa using hp
    | cons q pieces =>
      intro c hc
      rw [List.intercalate_cons_cons, List.mem_append, List.mem_append] at hc
      rcases hc with (hc | hc) | hc
      · exact hp c hc
      · exact hsep c hc
      · exact hrest c hc

theorem forall_mem_of_splitOnChar {P : Char → Prop} {sep : Char} (hsep : P sep) {cs : List Char}
    (h : ∀ p ∈ splitOnChar sep cs, ∀ c ∈ p, P c) : ∀ c ∈ cs, P c := by
  have hjoined := forall_mem_intercalate (List.forall_mem_singleton.mpr hsep) h
  rwa [splitOnChar_eq_splitOn, List.intercalate_splitOn] at hjoined

end Reputation.Text
