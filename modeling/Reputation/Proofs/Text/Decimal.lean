import Reputation.Proofs.Text.Numeral
/-!
Decimal numerals with a sign. A text is read as a 64-bit number just if it is at least one digit
after at most one sign and its number lies in the range. Leading zeros and a plus sign change
nothing, so many texts stand for one number.
-/
namespace Reputation.Text

/-- The number that digits denote, the last one being worth least. -/
def decimalNumber (ds : List Char) : Nat :=
  Nat.ofDigits 10 (ds.reverse.map fun c => c.toNat - '0'.toNat)

structure IsDecimal (ds : List Char) : Prop where
  nonempty : ds ≠ []
  digits : ∀ c ∈ ds, c.isDigit

/-- The texts of a whole number: its digits after at most one sign. -/
inductive IsInteger : List Char → Int → Prop where
  | unsigned {ds : List Char} (h : IsDecimal ds) : IsInteger ds (decimalNumber ds)
  | positive {ds : List Char} (h : IsDecimal ds) : IsInteger ('+' :: ds) (decimalNumber ds)
  | negative {ds : List Char} (h : IsDecimal ds) : IsInteger ('-' :: ds) (-(decimalNumber ds : Int))

theorem isDigit_iff_toNat {c : Char} : c.isDigit ↔ 0x30 ≤ c.toNat ∧ c.toNat ≤ 0x39 := by
  simp only [Char.isDigit, Bool.and_eq_true, decide_eq_true_eq, UInt32.le_iff_toNat_le, ge_iff_le]
  rfl

theorem digitValue?_decimal_iff (c : Char) (d : Nat) :
    digitValue? 10 c = some d ↔ c.isDigit ∧ d = c.toNat - '0'.toNat := by
  have hzero : '0'.toNat = 0x30 := rfl
  simp only [digitValue?, Option.filter_eq_some_iff, decide_eq_true_eq, isDigit_iff_toNat, hzero]
  grind

theorem digits?_decimal_iff {ds : List Char} {n : Nat} :
    digits? 10 ds = some n ↔ IsDecimal ds ∧ n = decimalNumber ds := by
  rw [digits?_eq_some_iff_ofDigits digitValue?_decimal_iff, ← and_assoc]
  exact and_congr_left fun _ => ⟨fun h => ⟨h.1, h.2⟩, fun h => ⟨h.1, h.2⟩⟩

theorem integer?_minus (base : Nat) (cs : List Char) :
    integer? base ('-' :: cs) = (digits? base cs).map fun n : Nat => -(n : Int) := by
  cases h : digits? base cs <;> simp [integer?, h]

theorem integer?_plus (base : Nat) (cs : List Char) :
    integer? base ('+' :: cs) = (digits? base cs).map Int.ofNat := rfl

theorem integer?_unsigned {base : Nat} {cs : List Char} (hplus : ∀ ds, cs ≠ '+' :: ds)
    (hminus : ∀ ds, cs ≠ '-' :: ds) : integer? base cs = (digits? base cs).map Int.ofNat := by
  unfold integer?
  split
  · exact absurd rfl (hminus _)
  · unfold natural?
    split
    · exact absurd rfl (hplus _)
    · rfl

theorem IsDecimal.ne_cons {c : Char} {cs ds : List Char} (h : IsDecimal cs)
    (hc : c.isDigit = false) : cs ≠ c :: ds := by
  rintro rfl
  exact absurd (h.digits c List.mem_cons_self) (by simp [hc])

theorem integer?_eq_some_iff {cs : List Char} {n : Int} :
    integer? 10 cs = some n ↔ IsInteger cs n := by
  constructor
  · intro h
    by_cases hminus : ∃ ds, cs = '-' :: ds
    · obtain ⟨ds, rfl⟩ := hminus
      obtain ⟨m, hm, rfl⟩ := Option.map_eq_some_iff.mp (integer?_minus 10 ds ▸ h)
      obtain ⟨hds, rfl⟩ := digits?_decimal_iff.mp hm
      exact .negative hds
    · by_cases hplus : ∃ ds, cs = '+' :: ds
      · obtain ⟨ds, rfl⟩ := hplus
        obtain ⟨m, hm, rfl⟩ := Option.map_eq_some_iff.mp (integer?_plus 10 ds ▸ h)
        obtain ⟨hds, rfl⟩ := digits?_decimal_iff.mp hm
        exact .positive hds
      · rw [integer?_unsigned (not_exists.mp hplus) (not_exists.mp hminus)] at h
        obtain ⟨m, hm, rfl⟩ := Option.map_eq_some_iff.mp h
        obtain ⟨hds, rfl⟩ := digits?_decimal_iff.mp hm
        exact .unsigned hds
  · intro h
    cases h with
    | unsigned hds =>
      rw [integer?_unsigned (fun _ => hds.ne_cons (by decide)) (fun _ => hds.ne_cons (by decide)),
        digits?_decimal_iff.mpr ⟨hds, rfl⟩]
      rfl
    | positive hds =>
      rw [integer?_plus, digits?_decimal_iff.mpr ⟨hds, rfl⟩]
      rfl
    | negative hds =>
      rw [integer?_minus, digits?_decimal_iff.mpr ⟨hds, rfl⟩]
      rfl

theorem IsInteger.unique {cs : List Char} {m n : Int} (hm : IsInteger cs m)
    (hn : IsInteger cs n) : m = n :=
  Option.some.inj ((integer?_eq_some_iff.mpr hm).symm.trans (integer?_eq_some_iff.mpr hn))

theorem int64?_eq_some_iff {cs : List Char} {n : Int64} :
    int64? cs = some n ↔ IsInteger cs n.toInt := by
  constructor
  · intro h
    obtain ⟨m, hread, hfits⟩ := Option.bind_eq_some_iff.mp h
    split at hfits
    · rename_i hm
      rw [Int64.toInt_minValue, Int64.toInt_maxValue] at hm
      obtain rfl := Option.some.inj hfits
      rw [Int64.toInt_ofInt_of_le hm.1 (by omega)]
      exact integer?_eq_some_iff.mp hread
    · cases hfits
  · intro h
    have hrange : Int64.minValue.toInt ≤ n.toInt ∧ n.toInt ≤ Int64.maxValue.toInt :=
      ⟨n.minValue_le_toInt, n.toInt_le⟩
    rw [int64?, integer?_eq_some_iff.mpr h, Option.bind_some, if_pos hrange, Int64.ofInt_toInt]

end Reputation.Text
