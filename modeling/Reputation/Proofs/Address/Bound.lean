import Reputation.Address.Range
import Reputation.Proofs.Text.Hexadecimal
import Reputation.Proofs.Text.Splitting
import Mathlib.Data.String.Basic
/-!
Bounds as text. The stored text of a bound has one form, and reading it gives the bound back. What
is read besides are the other hexadecimal numerals of 32 bytes at most, which cannot be too large.
Stored texts compare as the numbers do.
-/
namespace Reputation

open Text

namespace Bound

/-- Thirty-two lower-case hexadecimal digits. -/
def IsCanonical (s : String) : Prop :=
  s.length = 32 ∧ ∀ c ∈ s.toList, c ∈ "0123456789abcdef".toList

theorem text_toList (b : Bound) : b.text.toList = fixedDigits 16 32 b.value := by
  simp [text]

theorem isCanonical_text (b : Bound) : IsCanonical b.text := by
  have hdigits : ∀ d ∈ List.range 16, digitChar d ∈ "0123456789abcdef".toList := by decide
  constructor
  · rw [← String.length_toList, text_toList, length_fixedDigits]
  · intro c hc
    rw [text_toList] at hc
    obtain ⟨d, hd, rfl⟩ := exists_of_mem_fixedDigits (by decide) hc
    exact hdigits d (List.mem_range.mpr hd)

theorem isDigit_text (b : Bound) : ∀ c ∈ b.text.toList, IsDigit c := by
  intro c hc
  rw [text_toList] at hc
  obtain ⟨d, hd, rfl⟩ := exists_of_mem_fixedDigits (by decide) hc
  exact isDigit_digitChar hd

theorem utf8Len_of_isDigit {cs : List Char} (h : ∀ c ∈ cs, IsDigit c) :
    String.utf8Len cs = cs.length := by
  induction cs with
  | nil => rfl
  | cons c cs ih =>
    have hrange := (h c List.mem_cons_self).range
    have hsize : c.utf8Size = 1 := by
      rw [Char.utf8Size_eq_one_iff, UInt32.le_iff_toNat_le]
      change c.toNat ≤ 127
      omega
    rw [String.utf8Len_cons, hsize, ih fun x hx => h x (List.mem_cons_of_mem _ hx), List.length_cons]

theorem ofNat?_eq_some_iff {n : Nat} {b : Bound} : ofNat? n = some b ↔ b.value = n := by
  constructor
  · intro h
    by_cases hn : n < 0x100000000000000000000000000000000
    · rw [ofNat?, dif_pos hn] at h
      exact congrArg value (Option.some.inj h).symm
    · rw [ofNat?, dif_neg hn] at h
      cases h
  · rintro rfl
    rw [ofNat?, dif_pos b.value_lt]

theorem parse_text (b : Bound) : parse b.text = .ok b := by
  have htrim : trimChars b.text.toList = b.text.toList :=
    trimChars_eq_self fun c hc => (b.isDigit_text c hc).not_blank
  have hlength : b.text.toList.length = 32 := by
    rw [text_toList, length_fixedDigits]
  have hsize : (String.ofList b.text.toList).utf8ByteSize = 32 := by
    rw [String.utf8ByteSize_ofList, utf8Len_of_isDigit b.isDigit_text, hlength]
  have hne : b.text.toList ≠ [] := List.ne_nil_of_length_pos (hlength ▸ Nat.zero_lt_succ 31)
  have hvalue : natural? 16 b.text.toList = some b.value := by
    rw [natural?_of_isDigit b.isDigit_text, digits?_of_ne_nil hne, text_toList,
      foldDigits?_fixedDigits (by decide) (by decide), Nat.zero_mul, Nat.zero_add,
      Nat.mod_eq_of_lt (show b.value < 16 ^ 32 from b.value_lt)]
  have hfits : ofNat? b.value = some b := ofNat?_eq_some_iff.mpr rfl
  have hempty : b.text.toList.isEmpty = false := by simpa using hne
  simp only [parse, htrim, hsize, hempty, hvalue, hfits]
  rfl

theorem value_lt_pow (b : Bound) : b.value < 16 ^ 32 := b.value_lt

theorem text_inj {a b : Bound} : a.text = b.text ↔ a.value = b.value := by
  rw [← String.toList_inj, text_toList, text_toList]
  exact @fixedDigits_inj 16 32 _ _ (by decide) (by decide) a.value_lt_pow b.value_lt_pow

theorem text_lt_iff {a b : Bound} : a.text < b.text ↔ a.value < b.value := by
  rw [String.lt_iff, text_toList, text_toList]
  exact @fixedDigits_lt_iff 16 32 _ _ (by decide) (by decide) a.value_lt_pow b.value_lt_pow

theorem compare_eq_compare {s t : String} {m n : Nat} (hlt : s < t ↔ m < n) (heq : s = t ↔ m = n) :
    compare s t = compare m n := by
  have htexts : compare s t = compareOfLessAndEq s t := rfl
  rw [htexts, Nat.compare_eq_ite_lt]
  grind [compareOfLessAndEq]

theorem compare_text (a b : Bound) : compare a.text b.text = compare a.value b.value :=
  compare_eq_compare text_lt_iff text_inj

theorem length_le_utf8ByteSize (s : String) : s.toList.length ≤ s.utf8ByteSize := by
  have hchars : ∀ cs : List Char, cs.length ≤ String.utf8Len cs := by
    intro cs
    induction cs with
    | nil => exact Nat.le_refl 0
    | cons c cs ih =>
      have hpos := c.utf8Size_pos
      rw [String.utf8Len_cons, List.length_cons]
      omega
  have hle := hchars s.toList
  rwa [← String.utf8ByteSize_ofList, String.ofList_toList] at hle

theorem hexNumber_fits {s : String} {ds : List Char} (h : IsHexNumeral s.toList ds)
    (hsize : s.utf8ByteSize ≤ 32) : hexNumber ds < 0x100000000000000000000000000000000 := by
  have hlength : ds.length ≤ 32 := h.length_le.trans ((length_le_utf8ByteSize s).trans hsize)
  calc hexNumber ds
    _ < 16 ^ ds.length := hexNumber_lt h.digits
    _ ≤ 16 ^ 32 := Nat.pow_le_pow_right (by decide) hlength

theorem parse_eq_ok_iff {s : String} {b : Bound} :
    parse s = .ok b ↔ (trim s).utf8ByteSize ≤ 32 ∧
      ∃ ds, IsHexNumeral (trim s).toList ds ∧ b.value = hexNumber ds := by
  have hchars : (trim s).toList = trimChars s.toList := String.toList_ofList
  constructor
  · intro h
    unfold parse at h
    dsimp only at h
    split at h
    · cases h
    · rename_i hsize
      split at h
      · cases h
      · rename_i n hread
        obtain ⟨ds, hds, rfl⟩ := natural?_eq_some_iff.mp hread
        split at h
        · rename_i b' hfits
          obtain rfl := Except.ok.inj h
          rw [Bool.or_eq_true, not_or, decide_eq_true_iff] at hsize
          exact ⟨Nat.not_lt.mp hsize.2, ds, hchars ▸ hds, ofNat?_eq_some_iff.mp hfits⟩
        · cases h
  · rintro ⟨hsize, ds, hds, hvalue⟩
    have hempty : (trimChars s.toList).isEmpty = false :=
      List.isEmpty_eq_false_iff.mpr (hchars ▸ List.ne_nil_of_length_pos hds.length_pos)
    have hshort : ¬ 32 < (String.ofList (trimChars s.toList)).utf8ByteSize := Nat.not_lt.mpr hsize
    have hread : natural? 16 (trimChars s.toList) = some b.value :=
      natural?_eq_some_iff.mpr ⟨ds, hchars ▸ hds, hvalue⟩
    have hfits : ofNat? b.value = some b := ofNat?_eq_some_iff.mpr rfl
    simp only [parse, hempty, hshort, hread, hfits]
    rfl

/-- Bounds have one stored text each, which is read back. A text is read just if, without the white
space at its ends, it is a hexadecimal numeral of 1 to 32 bytes, and then exactly as its number. -/
theorem reads_hex_numerals :
    (∀ b : Bound, IsCanonical b.text ∧ parse b.text = .ok b) ∧
    ∀ s : String, TrimsTo s.toList (trim s).toList ∧
      ((∃ b, parse s = .ok b) ↔ (1 ≤ (trim s).utf8ByteSize ∧ (trim s).utf8ByteSize ≤ 32) ∧
        ∃ ds, IsHexNumeral (trim s).toList ds) ∧
      ∀ b ds, parse s = .ok b → IsHexNumeral (trim s).toList ds → b.value = hexNumber ds := by
  refine ⟨fun b => ⟨b.isCanonical_text, b.parse_text⟩, fun s => ⟨?_, ?_, ?_⟩⟩
  · rw [trim, String.toList_ofList]
    exact trimsTo_trimChars s.toList
  · constructor
    · rintro ⟨b, hb⟩
      obtain ⟨hsize, ds, hds, -⟩ := parse_eq_ok_iff.mp hb
      exact ⟨⟨hds.length_pos.trans_le (length_le_utf8ByteSize (trim s)), hsize⟩, ds, hds⟩
    · rintro ⟨⟨-, hsize⟩, ds, hds⟩
      exact ⟨⟨hexNumber ds, hexNumber_fits hds hsize⟩, parse_eq_ok_iff.mpr ⟨hsize, ds, hds, rfl⟩⟩
  · intro b ds hb hds
    obtain ⟨-, ds', hds', hvalue⟩ := parse_eq_ok_iff.mp hb
    rw [hvalue, hds'.unique hds]

/-- A sign and 31 digits take all the bytes there may be; with one digit more the text is too long,
although the number would be small enough. -/
theorem reads_hex_numerals_widest :
    (∃ b, parse "\u2003+000000000000000000000000000aBc9\n" = .ok b ∧ b.value = 0xabc9) ∧
      ¬ ∃ b, parse "+0000000000000000000000000000abc9" = .ok b := by
  have hnumeral : IsHexNumeral "+000000000000000000000000000aBc9".toList
      "000000000000000000000000000aBc9".toList :=
    ⟨.inr (by decide +kernel), by decide +kernel, List.all_iff_forall_prop.mp (by decide +kernel)⟩
  have htrim : trim "\u2003+000000000000000000000000000aBc9\n" =
      "+000000000000000000000000000aBc9" := by decide +kernel
  constructor
  · obtain ⟨-, hread, hvalue⟩ :=
      reads_hex_numerals.2 "\u2003+000000000000000000000000000aBc9\n"
    rw [htrim] at hread hvalue
    obtain ⟨b, hb⟩ := hread.mpr ⟨by decide +kernel, _, hnumeral⟩
    refine ⟨b, hb, (hvalue b _ hb hnumeral).trans ?_⟩
    decide +kernel
  · rw [(reads_hex_numerals.2 _).2.1]
    rintro ⟨⟨-, hsize⟩, -⟩
    exact absurd hsize (by decide +kernel)

end Bound

end Reputation
