import Reputation.Text.Numeral
import Reputation.Text.Blank
import Mathlib.Data.List.Basic
import Mathlib.Data.Nat.Digits.Lemmas
import Mathlib.Tactic.Ring
/-!
Numbers as digits. Digits are read as the number that they denote by their places. Those that are
printed of a number read back as that number, and there are no more of them than its size asks for.
-/
namespace Reputation.Text

/-- A digit of some base up to 16. -/
def IsDigit (c : Char) : Prop := (digitValue? 16 c).isSome

instance (c : Char) : Decidable (IsDigit c) := inferInstanceAs (Decidable (_ = true))

theorem digitValue?_eq_filter {base : Nat} (h : base ≤ 16) (c : Char) :
    digitValue? base c = (digitValue? 16 c).filter (· < base) := by
  simp only [digitValue?, Option.filter_filter]
  congr 1
  funext n
  rw [← Bool.decide_and]
  exact decide_eq_decide.mpr ⟨fun hn => ⟨by omega, hn⟩, And.right⟩

theorem digitValue?_digitChar {base d : Nat} (hbase : base ≤ 16) (hd : d < base) :
    digitValue? base (digitChar d) = some d := by
  have hall : ∀ e ∈ List.range 16, digitValue? 16 (digitChar e) = some e := by decide
  rw [digitValue?_eq_filter hbase, hall d (List.mem_range.mpr (by omega))]
  simp [hd]

theorem isDigit_digitChar {d : Nat} (h : d < 16) : IsDigit (digitChar d) := by
  rw [IsDigit, digitValue?_digitChar (Nat.le_refl 16) h]
  rfl

theorem IsDigit.range {c : Char} (h : IsDigit c) : (0x30 ≤ c.toNat ∧ c.toNat ≤ 0x39) ∨
    (0x61 ≤ c.toNat ∧ c.toNat ≤ 0x66) ∨ (0x41 ≤ c.toNat ∧ c.toNat ≤ 0x46) := by
  obtain ⟨d, hd⟩ := Option.isSome_iff_exists.mp h
  obtain ⟨hvalue, hlt⟩ := Option.filter_eq_some_iff.mp hd
  have hlt : d < 16 := by simpa using hlt
  split at hvalue
  · omega
  · split at hvalue
    · have := Option.some.inj hvalue
      omega
    · split at hvalue
      · have := Option.some.inj hvalue
        omega
      · cases hvalue

theorem IsDigit.not_blank {c : Char} (h : IsDigit c) : isBlank c = false := by
  have hrange := h.range
  simp only [isBlank, Bool.or_eq_false_iff, Bool.and_eq_false_iff, decide_eq_false_iff_not,
    beq_eq_false_iff_ne]
  omega

theorem foldDigits?_append (base acc : Nat) (cs ds : List Char) :
    foldDigits? base acc (cs ++ ds) = (foldDigits? base acc cs).bind (foldDigits? base · ds) := by
  induction cs generalizing acc with
  | nil => rfl
  | cons c cs ih =>
    simp only [List.cons_append, foldDigits?]
    cases digitValue? base c with
    | none => rfl
    | some d => exact ih _

theorem exists_value_of_foldDigits? {base acc n : Nat} {cs : List Char}
    (h : foldDigits? base acc cs = some n) : ∀ c ∈ cs, ∃ d, digitValue? base c = some d := by
  induction cs generalizing acc with
  | nil => simp
  | cons c cs ih =>
    obtain ⟨d, hd, hrest⟩ := Option.bind_eq_some_iff.mp h
    intro x hx
    rcases List.mem_cons.mp hx with rfl | hx
    · exact ⟨d, hd⟩
    · exact ih hrest x hx

theorem isDigit_of_foldDigits? {base acc n : Nat} (hbase : base ≤ 16) {cs : List Char}
    (h : foldDigits? base acc cs = some n) : ∀ c ∈ cs, IsDigit c := by
  intro c hc
  obtain ⟨d, hd⟩ := exists_value_of_foldDigits? h c hc
  rw [digitValue?_eq_filter hbase] at hd
  exact Option.isSome_iff_exists.mpr ⟨d, (Option.filter_eq_some_iff.mp hd).1⟩

theorem digits?_of_ne_nil {base : Nat} {cs : List Char} (h : cs ≠ []) :
    digits? base cs = foldDigits? base 0 cs := by
  cases cs with
  | nil => exact absurd rfl h
  | cons c cs => rfl

theorem isDigit_of_digits? {base n : Nat} (hbase : base ≤ 16) {cs : List Char}
    (h : digits? base cs = some n) : ∀ c ∈ cs, IsDigit c := by
  cases cs with
  | nil => cases h
  | cons c cs => exact isDigit_of_foldDigits? hbase h

section Alphabet

variable {base : Nat} {value : Char → Nat} {ds : List Char}

theorem foldDigits?_eq_ofDigits {acc : Nat}
    (h : ∀ c ∈ ds, digitValue? base c = some (value c)) :
    foldDigits? base acc ds =
      some (acc * base ^ ds.length + Nat.ofDigits base (ds.reverse.map value)) := by
  induction ds generalizing acc with
  | nil => simp [foldDigits?]
  | cons c ds ih =>
    have hds : ∀ x ∈ ds, digitValue? base x = some (value x) :=
      fun x hx => h x (List.mem_cons_of_mem _ hx)
    rw [foldDigits?, h c List.mem_cons_self, Option.bind_some, ih hds]
    simp only [List.reverse_cons, List.map_append, List.map_cons, List.map_nil,
      Nat.ofDigits_append, Nat.ofDigits_singleton, List.length_map, List.length_reverse,
      List.length_cons]
    congr 1
    ring

/-- What is read in a base, if `digit` tells its digits and `value` their values. -/
theorem digits?_eq_some_iff_ofDigits {digit : Char → Prop} {n : Nat}
    (hvalue : ∀ c d, digitValue? base c = some d ↔ digit c ∧ d = value c) :
    digits? base ds = some n ↔
      ds ≠ [] ∧ (∀ c ∈ ds, digit c) ∧ n = Nat.ofDigits base (ds.reverse.map value) := by
  have hread : (∀ c ∈ ds, digit c) →
      foldDigits? base 0 ds = some (Nat.ofDigits base (ds.reverse.map value)) := by
    intro hdigits
    rw [foldDigits?_eq_ofDigits fun c hc => (hvalue c _).mpr ⟨hdigits c hc, rfl⟩, Nat.zero_mul,
      Nat.zero_add]
  constructor
  · intro h
    have hne : ds ≠ [] := by
      rintro rfl
      cases h
    rw [digits?_of_ne_nil hne] at h
    have hdigits : ∀ c ∈ ds, digit c := by
      intro c hc
      obtain ⟨d, hd⟩ := exists_value_of_foldDigits? h c hc
      exact ((hvalue c d).mp hd).1
    exact ⟨hne, hdigits, Option.some.inj (h.symm.trans (hread hdigits))⟩
  · rintro ⟨hne, hdigits, rfl⟩
    rw [digits?_of_ne_nil hne, hread hdigits]

end Alphabet

theorem length_fixedDigits (base width n : Nat) : (fixedDigits base width n).length = width := by
  induction width generalizing n with
  | zero => rfl
  | succ width ih => simp [fixedDigits, ih]

theorem exists_of_mem_fixedDigits {base width n : Nat} (hpos : 0 < base) {c : Char}
    (h : c ∈ fixedDigits base width n) : ∃ d, d < base ∧ c = digitChar d := by
  induction width generalizing n with
  | zero => simp [fixedDigits] at h
  | succ width ih =>
    rcases List.mem_append.mp h with h | h
    · exact ih h
    · exact ⟨n % base, Nat.mod_lt n hpos, List.mem_singleton.mp h⟩

theorem foldDigits?_fixedDigits {base : Nat} (hpos : 0 < base) (hbase : base ≤ 16)
    (width acc n : Nat) :
    foldDigits? base acc (fixedDigits base width n) =
      some (acc * base ^ width + n % base ^ width) := by
  induction width generalizing n with
  | zero => simp [fixedDigits, foldDigits?, Nat.mod_one]
  | succ width ih =>
    rw [fixedDigits, foldDigits?_append, ih]
    simp only [Option.bind_some, foldDigits?, digitValue?_digitChar hbase (Nat.mod_lt n hpos)]
    rw [Nat.pow_succ', Nat.mod_mul]
    congr 1
    ring

theorem shortDigits_ne_nil (base fuel n : Nat) : shortDigits base fuel n ≠ [] := by
  cases fuel with
  | zero => simp [shortDigits]
  | succ fuel =>
    unfold shortDigits
    split <;> simp

theorem isDigit_shortDigits {base : Nat} (hpos : 0 < base) (hbase : base ≤ 16) (fuel n : Nat) :
    ∀ c ∈ shortDigits base fuel n, IsDigit c := by
  induction fuel generalizing n with
  | zero =>
    have hlt := Nat.mod_lt n hpos
    simpa [shortDigits] using isDigit_digitChar (by omega : n % base < 16)
  | succ fuel ih =>
    unfold shortDigits
    split
    · simpa using isDigit_digitChar (by omega : n < 16)
    · intro c hc
      rcases List.mem_append.mp hc with hc | hc
      · exact ih _ c hc
      · rw [List.mem_singleton.mp hc]
        have hlt := Nat.mod_lt n hpos
        exact isDigit_digitChar (by omega)

theorem foldDigits?_shortDigits {base : Nat} (hpos : 0 < base) (hbase : base ≤ 16) {fuel n : Nat}
    (h : n < base ^ (fuel + 1)) : foldDigits? base 0 (shortDigits base fuel n) = some n := by
  induction fuel generalizing n with
  | zero =>
    have hlt : n < base := by simpa using h
    simp [shortDigits, foldDigits?, Nat.mod_eq_of_lt hlt, digitValue?_digitChar hbase hlt]
  | succ fuel ih =>
    unfold shortDigits
    split
    · rename_i hlt
      simp [foldDigits?, digitValue?_digitChar hbase hlt]
    · have hdiv : n / base < base ^ (fuel + 1) := by
        rw [Nat.div_lt_iff_lt_mul hpos, ← Nat.pow_succ]
        exact h
      rw [foldDigits?_append, ih hdiv]
      simp only [Option.bind_some, foldDigits?, digitValue?_digitChar hbase (Nat.mod_lt n hpos)]
      rw [Nat.div_add_mod']

theorem digits?_shortDigits {base : Nat} (htwo : 2 ≤ base) (hbase : base ≤ 16) (n : Nat) :
    digits? base (shortDigits base n.log2 n) = some n := by
  have hfuel : n < base ^ (n.log2 + 1) :=
    Nat.lt_of_lt_of_le Nat.lt_log2_self (Nat.pow_le_pow_left htwo _)
  rw [digits?_of_ne_nil (shortDigits_ne_nil _ _ _), foldDigits?_shortDigits (by omega) hbase hfuel]

theorem length_shortDigits_le {base : Nat} (hpos : 0 < base) {fuel n k : Nat} (hk : 0 < k)
    (h : n < base ^ k) : (shortDigits base fuel n).length ≤ k := by
  induction fuel generalizing n k with
  | zero => simpa [shortDigits] using Nat.succ_le_of_lt hk
  | succ fuel ih =>
    unfold shortDigits
    split
    · simpa using Nat.succ_le_of_lt hk
    · rename_i hge
      obtain ⟨k, rfl⟩ := Nat.exists_eq_succ_of_ne_zero (by omega : k ≠ 0)
      have hdiv : n / base < base ^ k := by
        rw [Nat.div_lt_iff_lt_mul hpos, ← Nat.pow_succ]
        exact h
      have hk' : 0 < k := by
        rcases Nat.eq_zero_or_pos k with rfl | hk'
        · simp at h
          omega
        · exact hk'
      simpa using ih hk' hdiv

theorem head?_shortDigits {base : Nat} (hpos : 0 < base) (hbase : base ≤ 16) {fuel n : Nat}
    (hn : 0 < n) (h : n < base ^ (fuel + 1)) : (shortDigits base fuel n).head? ≠ some '0' := by
  have hzero : ∀ d ∈ List.range 16, digitChar d = '0' → d = 0 := by decide
  induction fuel generalizing n with
  | zero =>
    have hlt : n < base := by simpa using h
    simp only [shortDigits, Nat.mod_eq_of_lt hlt, List.head?_cons, ne_eq, Option.some.injEq]
    intro heq
    have := hzero n (List.mem_range.mpr (by omega)) heq
    omega
  | succ fuel ih =>
    unfold shortDigits
    split
    · rename_i hlt
      simp only [List.head?_cons, ne_eq, Option.some.injEq]
      intro heq
      have := hzero n (List.mem_range.mpr (by omega)) heq
      omega
    · rename_i hge
      have hdiv : n / base < base ^ (fuel + 1) := by
        rw [Nat.div_lt_iff_lt_mul hpos, ← Nat.pow_succ]
        exact h
      rw [List.head?_append_of_ne_nil _ (shortDigits_ne_nil _ _ _)]
      exact ih (Nat.div_pos (by omega) hpos) hdiv

theorem decimalText_toList (n : Nat) : (decimalText n).toList = shortDigits 10 n.log2 n := by
  simp [decimalText]

theorem hexText_toList (n : Nat) : (hexText n).toList = shortDigits 16 n.log2 n := by
  simp [hexText]

theorem hexText_ne_nil (n : Nat) : (hexText n).toList ≠ [] := by
  rw [hexText_toList]
  exact shortDigits_ne_nil _ _ _

theorem digits?_decimalText (n : Nat) : digits? 10 (decimalText n).toList = some n := by
  rw [decimalText_toList, digits?_shortDigits (by decide) (by decide)]

theorem digits?_hexText (n : Nat) : digits? 16 (hexText n).toList = some n := by
  rw [hexText_toList, digits?_shortDigits (by decide) (by decide)]

theorem isDigit_decimalText (n : Nat) : ∀ c ∈ (decimalText n).toList, IsDigit c := by
  rw [decimalText_toList]
  exact isDigit_shortDigits (by decide) (by decide) _ n

theorem isDigit_hexText (n : Nat) : ∀ c ∈ (hexText n).toList, IsDigit c := by
  rw [hexText_toList]
  exact isDigit_shortDigits (by decide) (by decide) _ n

theorem natural?_of_isDigit {base : Nat} {cs : List Char} (h : ∀ c ∈ cs, IsDigit c) :
    natural? base cs = digits? base cs := by
  unfold natural?
  split
  · exact absurd (h '+' List.mem_cons_self) (by decide)
  · rfl

theorem isDigit_or_plus_of_naturalUpTo? {max n : Nat} {cs : List Char}
    (h : naturalUpTo? max cs = some n) : ∀ c ∈ cs, IsDigit c ∨ c = '+' := by
  have hread : natural? 10 cs = some n := (Option.filter_eq_some_iff.mp h).1
  unfold natural? at hread
  split at hread
  · intro c hc
    rcases List.mem_cons.mp hc with rfl | hc
    · exact .inr rfl
    · exact .inl (isDigit_of_digits? (by decide) hread c hc)
  · exact fun c hc => .inl (isDigit_of_digits? (by decide) hread c hc)

theorem naturalUpTo?_decimalText {max n : Nat} (h : n ≤ max) :
    naturalUpTo? max (decimalText n).toList = some n := by
  rw [naturalUpTo?, natural?_of_isDigit (isDigit_decimalText n), digits?_decimalText]
  simp [h]

end Reputation.Text
