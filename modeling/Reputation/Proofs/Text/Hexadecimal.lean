import Reputation.Proofs.Text.Numeral
import Mathlib.Data.Bool.AllAny
/-!
Hexadecimal numerals as positional numbers. A text is read in base 16 just if it is such a numeral,
in letters of either case, and then as the number that its digits denote. Numerals of one width are
in the order of their numbers.
-/
namespace Reputation.Text

def hexDigits : List Char := "0123456789abcdefABCDEF".toList

/-- The place of a digit in its alphabet, where capital letters count as small ones. -/
def hexValue (c : Char) : Nat := "0123456789abcdef".toList.idxOf c.toLower

/-- The number that digits denote, the last one being worth least. -/
def hexNumber (ds : List Char) : Nat := Nat.ofDigits 16 (ds.reverse.map hexValue)

theorem isDigit_of_mem_hexDigits : ∀ c ∈ hexDigits, IsDigit c :=
  List.all_iff_forall_prop.mp (by decide +kernel)

theorem hexDigit_spec {c : Char} (h : IsDigit c) :
    c ∈ hexDigits ∧ digitValue? 16 c = some (hexValue c) := by
  have hall : ∀ n ∈ List.range 128, IsDigit (Char.ofNat n) →
      Char.ofNat n ∈ hexDigits ∧ digitValue? 16 (Char.ofNat n) = some (hexValue (Char.ofNat n)) := by
    decide +kernel
  have hrange := h.range
  have hsmall := hall c.toNat (List.mem_range.mpr (by omega))
  rw [Char.ofNat_toNat] at hsmall
  exact hsmall h

theorem digitValue?_hex_iff (c : Char) (d : Nat) :
    digitValue? 16 c = some d ↔ c ∈ hexDigits ∧ d = hexValue c := by
  constructor
  · intro h
    obtain ⟨hmem, hvalue⟩ := hexDigit_spec (Option.isSome_iff_exists.mpr ⟨d, h⟩)
    exact ⟨hmem, Option.some.inj (h.symm.trans hvalue)⟩
  · rintro ⟨hmem, rfl⟩
    exact (hexDigit_spec (isDigit_of_mem_hexDigits c hmem)).2

theorem hexValue_lt {c : Char} (h : c ∈ hexDigits) : hexValue c < 16 := by
  have hall : ∀ d ∈ hexDigits, hexValue d < 16 :=
    List.all_iff_forall_prop.mp (by decide +kernel)
  exact hall c h

theorem hexNumber_lt {ds : List Char} (h : ∀ c ∈ ds, c ∈ hexDigits) :
    hexNumber ds < 16 ^ ds.length := by
  have hdigits : ∀ d ∈ ds.reverse.map hexValue, d < 16 := by
    intro d hd
    obtain ⟨c, hc, rfl⟩ := List.mem_map.mp hd
    exact hexValue_lt (h c (List.mem_reverse.mp hc))
  simpa [hexNumber] using Nat.ofDigits_lt_base_pow_length (by decide) hdigits

theorem digits?_eq_some_iff {ds : List Char} {n : Nat} :
    digits? 16 ds = some n ↔ ds ≠ [] ∧ (∀ c ∈ ds, c ∈ hexDigits) ∧ n = hexNumber ds :=
  digits?_eq_some_iff_ofDigits digitValue?_hex_iff

/-- At least one digit of either case, and no more than a plus sign before. -/
structure IsHexNumeral (cs ds : List Char) : Prop where
  sign : cs = ds ∨ cs = '+' :: ds
  nonempty : ds ≠ []
  digits : ∀ c ∈ ds, c ∈ hexDigits

/-- The sign is no digit, so there is one way to take a numeral apart. -/
theorem natural?_eq_some_iff {cs : List Char} {n : Nat} :
    natural? 16 cs = some n ↔ ∃ ds, IsHexNumeral cs ds ∧ n = hexNumber ds := by
  have hplus : '+' ∉ hexDigits := by decide
  constructor
  · intro h
    unfold natural? at h
    split at h
    · rename_i ds
      obtain ⟨hne, hdigits, hn⟩ := digits?_eq_some_iff.mp h
      exact ⟨ds, ⟨.inr rfl, hne, hdigits⟩, hn⟩
    · obtain ⟨hne, hdigits, hn⟩ := digits?_eq_some_iff.mp h
      exact ⟨cs, ⟨.inl rfl, hne, hdigits⟩, hn⟩
  · rintro ⟨ds, ⟨rfl | rfl, hne, hdigits⟩, hn⟩
    · rw [natural?_of_isDigit fun c hc => isDigit_of_mem_hexDigits c (hdigits c hc)]
      exact digits?_eq_some_iff.mpr ⟨hne, hdigits, hn⟩
    · exact digits?_eq_some_iff.mpr ⟨hne, hdigits, hn⟩

theorem IsHexNumeral.length_le {cs ds : List Char} (h : IsHexNumeral cs ds) :
    ds.length ≤ cs.length := by
  rcases h.sign with rfl | rfl
  · exact Nat.le_refl _
  · exact Nat.le_succ _

theorem IsHexNumeral.length_pos {cs ds : List Char} (h : IsHexNumeral cs ds) : 0 < cs.length :=
  Nat.lt_of_lt_of_le (List.length_pos_of_ne_nil h.nonempty) h.length_le

theorem IsHexNumeral.unique {cs ds ds' : List Char} (h : IsHexNumeral cs ds)
    (h' : IsHexNumeral cs ds') : ds = ds' := by
  have hplus : '+' ∉ hexDigits := by decide
  rcases h.sign with rfl | rfl
  · rcases h'.sign with heq | rfl
    · exact heq
    · exact absurd (h.digits '+' List.mem_cons_self) hplus
  · rcases h'.sign with rfl | heq
    · exact absurd (h'.digits '+' List.mem_cons_self) hplus
    · exact List.tail_eq_of_cons_eq heq

theorem append_singleton_lt_iff {as bs : List Char} (h : as.length = bs.length) (a b : Char) :
    as ++ [a] < bs ++ [b] ↔ as < bs ∨ as = bs ∧ a < b := by
  induction as generalizing bs with
  | nil =>
    obtain rfl := List.length_eq_zero_iff.mp h.symm
    simp [List.cons_lt_cons_iff]
  | cons c as ih =>
    cases bs with
    | nil => cases h
    | cons d bs =>
      have hlength : as.length = bs.length := Nat.succ.inj h
      simp only [List.cons_append, List.cons_lt_cons_iff, ih hlength, List.cons.injEq]
      tauto

theorem digitChar_lt_iff {d e : Nat} (hd : d < 16) (he : e < 16) :
    digitChar d < digitChar e ↔ d < e := by
  have hall : ∀ m ∈ List.range 16, ∀ n ∈ List.range 16, digitChar m < digitChar n ↔ m < n := by
    decide
  exact hall d (List.mem_range.mpr hd) e (List.mem_range.mpr he)

theorem fixedDigits_inj {base width m n : Nat} (hpos : 0 < base) (hbase : base ≤ 16)
    (hm : m < base ^ width) (hn : n < base ^ width) :
    fixedDigits base width m = fixedDigits base width n ↔ m = n := by
  constructor
  · intro h
    have hvalue := congrArg (foldDigits? base 0) h
    rw [foldDigits?_fixedDigits hpos hbase, foldDigits?_fixedDigits hpos hbase,
      Nat.mod_eq_of_lt hm, Nat.mod_eq_of_lt hn] at hvalue
    simpa using hvalue
  · exact congrArg _

/-- With leading zeros, numerals sort as the numbers do. -/
theorem fixedDigits_lt_iff {base width m n : Nat} (hpos : 0 < base) (hbase : base ≤ 16)
    (hm : m < base ^ width) (hn : n < base ^ width) :
    fixedDigits base width m < fixedDigits base width n ↔ m < n := by
  induction width generalizing m n with
  | zero =>
    obtain rfl : m = 0 := by simpa using hm
    obtain rfl : n = 0 := by simpa using hn
    simp [fixedDigits]
  | succ width ih =>
    have hquotient : ∀ k, k < base ^ (width + 1) → k / base < base ^ width :=
      fun k hk => Nat.div_lt_of_lt_mul (Nat.pow_succ' ▸ hk)
    have hlength : (fixedDigits base width (m / base)).length =
        (fixedDigits base width (n / base)).length := by
      rw [length_fixedDigits, length_fixedDigits]
    have hlast : ∀ k, k % base < 16 := fun k => Nat.lt_of_lt_of_le (Nat.mod_lt k hpos) hbase
    rw [fixedDigits, fixedDigits, append_singleton_lt_iff hlength,
      ih (hquotient m hm) (hquotient n hn),
      fixedDigits_inj hpos hbase (hquotient m hm) (hquotient n hn),
      digitChar_lt_iff (hlast m) (hlast n)]
    -- Numbers compare by their quotients, and by their remainders where these are the same.
    have hdm := Nat.div_add_mod m base
    have hdn := Nat.div_add_mod n base
    constructor
    · rintro (hlt | ⟨heq, hlt⟩)
      · exact Nat.lt_of_div_lt_div hlt
      · rw [heq] at hdm
        omega
    · intro hlt
      rcases Nat.lt_or_eq_of_le (Nat.div_le_div_right hlt.le) with hquot | hquot
      · exact .inl hquot
      · rw [hquot] at hdm
        exact .inr ⟨hquot, by omega⟩

end Reputation.Text
