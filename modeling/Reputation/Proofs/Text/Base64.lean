import Reputation.Text.Base64
import Mathlib.Logic.Basic
/-!
Base64 reads back, both ways. The text of a byte string decodes to these bytes, group by group;
padding is never mistaken for a sextet. And no other text decodes to them.
-/
namespace Reputation.Text.Base64

theorem sextet?_sextetChar {n : Nat} (h : n < 64) : sextet? (sextetChar n) = some n := by
  have hall : ∀ m ∈ List.range 64, sextet? (sextetChar m) = some m := by decide
  exact hall n (List.mem_range.mpr h)

theorem sextetChar_ne {n : Nat} (h : n < 64) {c : Char} (hc : sextet? c = none) :
    sextetChar n ≠ c := by
  rintro rfl
  cases hc.symm.trans (sextet?_sextetChar h)

theorem sextetChar_ne_pad {n : Nat} (h : n < 64) : sextetChar n ≠ '=' := sextetChar_ne h rfl

theorem decode?_group {a b c d : Nat} (ha : a < 64) (hb : b < 64) (hc : c < 64) (hd : d < 64)
    (rest : List Char) :
    decode? (sextetChar a :: sextetChar b :: sextetChar c :: sextetChar d :: rest) =
      (decode? rest).map fun tail =>
        let n := ((a * 64 + b) * 64 + c) * 64 + d
        UInt8.ofNat (n / 65536) :: UInt8.ofNat (n / 256) :: UInt8.ofNat n :: tail := by
  rw [decode?]
  · simp only [sextet?_sextetChar ha, sextet?_sextetChar hb, sextet?_sextetChar hc,
      sextet?_sextetChar hd]
    cases decode? rest <;> rfl
  · intro _ hpad
    exact absurd hpad (sextetChar_ne_pad hd)
  · intro hpad
    exact absurd hpad (sextetChar_ne_pad hd)

theorem decode?_pair {a b : Nat} (ha : a < 64) (hb : b < 64) (h : b % 16 = 0) :
    decode? [sextetChar a, sextetChar b, '=', '='] = some [UInt8.ofNat ((a * 64 + b) / 16)] := by
  have hmod : (a * 64 + b) % 16 = 0 := by omega
  simp [decode?, sextet?_sextetChar ha, sextet?_sextetChar hb, hmod]

theorem decode?_triple {a b c : Nat} (ha : a < 64) (hb : b < 64) (hc : c < 64) (h : c % 4 = 0) :
    decode? [sextetChar a, sextetChar b, sextetChar c, '='] =
      some [UInt8.ofNat (((a * 64 + b) * 64 + c) / 1024),
        UInt8.ofNat (((a * 64 + b) * 64 + c) / 4)] := by
  have hmod : ((a * 64 + b) * 64 + c) % 4 = 0 := by omega
  rw [decode?]
  · simp [sextet?_sextetChar ha, sextet?_sextetChar hb, sextet?_sextetChar hc, hmod]
  · exact sextetChar_ne_pad hc

theorem uint8_eq {n : Nat} {a : UInt8} (h : n % 256 = a.toNat) : UInt8.ofNat n = a := by
  rw [← UInt8.toNat_inj, UInt8.toNat_ofNat', h]

theorem decode?_encode (bytes : List UInt8) : decode? (encode bytes) = some bytes := by
  induction bytes using encode.induct with
  | case1 => rfl
  | case2 a =>
    have ha := a.toNat_lt
    rw [encode, decode?_pair (by omega) (by omega) (by omega)]
    have hfirst : UInt8.ofNat ((a.toNat / 4 * 64 + a.toNat % 4 * 16) / 16) = a :=
      uint8_eq (by omega)
    rw [hfirst]
  | case3 a b =>
    have ha := a.toNat_lt
    have hb := b.toNat_lt
    rw [encode, decode?_triple (by omega) (by omega) (by omega) (by omega)]
    refine congrArg some (congrArg₂ _ (uint8_eq ?_) (congrArg₂ _ (uint8_eq ?_) rfl))
    · omega
    · omega
  | case4 a b c rest ih =>
    have ha := a.toNat_lt
    have hb := b.toNat_lt
    have hc := c.toNat_lt
    rw [encode, decode?_group (by omega) (by omega) (by omega) (by omega), ih]
    refine congrArg some (congrArg₂ _ (uint8_eq ?_) (congrArg₂ _ (uint8_eq ?_)
      (congrArg₂ _ (uint8_eq ?_) rfl)))
    · omega
    · omega
    · omega

theorem notMem_encode {c : Char} (hc : sextet? c = none) (hpad : c ≠ '=') (bytes : List UInt8) :
    c ∉ encode bytes := by
  have hne : ∀ {n : Nat}, n < 64 → c ≠ sextetChar n := fun h => (sextetChar_ne h hc).symm
  induction bytes using encode.induct with
  | case1 => exact List.not_mem_nil
  | case2 a =>
    have ha := a.toNat_lt
    simp only [encode, List.mem_cons, List.not_mem_nil, or_false, not_or]
    exact ⟨hne (by omega), hne (by omega), hpad, hpad⟩
  | case3 a b =>
    have ha := a.toNat_lt
    have hb := b.toNat_lt
    simp only [encode, List.mem_cons, List.not_mem_nil, or_false, not_or]
    exact ⟨hne (by omega), hne (by omega), hne (by omega), hpad⟩
  | case4 a b c' rest ih =>
    have ha := a.toNat_lt
    have hb := b.toNat_lt
    have hc' := c'.toNat_lt
    simp only [encode, List.mem_cons, not_or]
    exact ⟨hne (by omega), hne (by omega), hne (by omega), hne (by omega), ih⟩

theorem sextetChar_of_sextet? {c : Char} {n : Nat} (h : sextet? c = some n) :
    n < 64 ∧ sextetChar n = c := by
  have hchar : Char.ofNat c.toNat = c := Char.ofNat_toNat c
  unfold sextet? at h
  dsimp only at h
  split at h
  · obtain rfl := Option.some.inj h
    refine ⟨by omega, ?_⟩
    rw [sextetChar, if_pos (by omega), Nat.add_sub_cancel' (by omega), hchar]
  · split at h
    · obtain rfl := Option.some.inj h
      refine ⟨by omega, ?_⟩
      rw [sextetChar, if_neg (by omega), if_pos (by omega), Nat.add_sub_cancel,
        Nat.add_sub_cancel' (by omega), hchar]
    · split at h
      · obtain rfl := Option.some.inj h
        refine ⟨by omega, ?_⟩
        rw [sextetChar, if_neg (by omega), if_neg (by omega), if_pos (by omega),
          Nat.add_sub_cancel, Nat.add_sub_cancel' (by omega), hchar]
      · split at h
        · rename_i hplus
          obtain rfl := Option.some.inj h
          exact ⟨by decide, hplus.symm ▸ rfl⟩
        · split at h
          · rename_i hslash
            obtain rfl := Option.some.inj h
            exact ⟨by decide, hslash.symm ▸ rfl⟩
          · cases h

theorem encode_pair {x y : Nat} (hx : x < 64) (hy : y < 64) (h : (x * 64 + y) % 16 = 0) :
    encode [UInt8.ofNat ((x * 64 + y) / 16)] = [sextetChar x, sextetChar y, '=', '='] := by
  have hfirst : (x * 64 + y) / 16 % 256 / 4 = x := by omega
  have hsecond : (x * 64 + y) / 16 % 256 % 4 * 16 = y := by omega
  simp only [encode, UInt8.toNat_ofNat', Nat.reducePow, hfirst, hsecond]

theorem encode_triple {x y z : Nat} (hx : x < 64) (hy : y < 64) (hz : z < 64)
    (h : ((x * 64 + y) * 64 + z) % 4 = 0) :
    encode [UInt8.ofNat (((x * 64 + y) * 64 + z) / 1024),
      UInt8.ofNat (((x * 64 + y) * 64 + z) / 4)] =
        [sextetChar x, sextetChar y, sextetChar z, '='] := by
  have hvalue : ((x * 64 + y) * 64 + z) / 1024 % 256 * 256 + ((x * 64 + y) * 64 + z) / 4 % 256 =
      ((x * 64 + y) * 64 + z) / 4 := by omega
  have hfirst : ((x * 64 + y) * 64 + z) / 4 / 1024 = x := by omega
  have hsecond : ((x * 64 + y) * 64 + z) / 4 / 16 % 64 = y := by omega
  have hthird : ((x * 64 + y) * 64 + z) / 4 % 16 * 4 = z := by omega
  simp only [encode, UInt8.toNat_ofNat', Nat.reducePow, hvalue, hfirst, hsecond, hthird]

theorem encode_group {x y z w : Nat} (hx : x < 64) (hy : y < 64) (hz : z < 64) (hw : w < 64)
    (rest : List UInt8) :
    let n := ((x * 64 + y) * 64 + z) * 64 + w
    encode (UInt8.ofNat (n / 65536) :: UInt8.ofNat (n / 256) :: UInt8.ofNat n :: rest) =
      sextetChar x :: sextetChar y :: sextetChar z :: sextetChar w :: encode rest := by
  intro n
  have hvalue : (n / 65536 % 256 * 256 + n / 256 % 256) * 256 + n % 256 = n := by omega
  have hfirst : n / 262144 = x := by omega
  have hsecond : n / 4096 % 64 = y := by omega
  have hthird : n / 64 % 64 = z := by omega
  have hfourth : n % 64 = w := by omega
  simp only [encode, UInt8.toNat_ofNat', Nat.reducePow, hvalue, hfirst, hsecond, hthird, hfourth]

/-- Reading is strict: a text that is read as some bytes is the text of these bytes. -/
theorem encode_of_decode? {cs : List Char} {bytes : List UInt8} (h : decode? cs = some bytes) :
    encode bytes = cs := by
  induction cs using decode?.induct generalizing bytes with
  | case1 =>
    obtain rfl := Option.some.inj h
    rfl
  | case2 a b =>
    simp only [decode?, Option.bind_eq_bind, Option.bind_eq_some_iff] at h
    obtain ⟨x, hx, y, hy, h⟩ := h
    obtain ⟨hxlt, rfl⟩ := sextetChar_of_sextet? hx
    obtain ⟨hylt, rfl⟩ := sextetChar_of_sextet? hy
    by_cases hzero : (x * 64 + y) % 16 = 0
    · rw [if_pos hzero] at h
      obtain rfl := Option.some.inj h
      exact encode_pair hxlt hylt hzero
    · rw [if_neg hzero] at h
      cases h
  | case3 a b c hc =>
    rw [decode?] at h
    · simp only [Option.bind_eq_bind, Option.bind_eq_some_iff] at h
      obtain ⟨x, hx, y, hy, z, hz, h⟩ := h
      obtain ⟨hxlt, rfl⟩ := sextetChar_of_sextet? hx
      obtain ⟨hylt, rfl⟩ := sextetChar_of_sextet? hy
      obtain ⟨hzlt, rfl⟩ := sextetChar_of_sextet? hz
      by_cases hzero : ((x * 64 + y) * 64 + z) % 4 = 0
      · rw [if_pos hzero] at h
        obtain rfl := Option.some.inj h
        exact encode_triple hxlt hylt hzlt hzero
      · rw [if_neg hzero] at h
        cases h
    · exact hc
  | case4 a b c d rest hpair htriple ih =>
    rw [decode?] at h
    · simp only [Option.bind_eq_bind, Option.bind_eq_some_iff] at h
      obtain ⟨x, hx, y, hy, z, hz, w, hw, tail, htail, h⟩ := h
      obtain ⟨hxlt, rfl⟩ := sextetChar_of_sextet? hx
      obtain ⟨hylt, rfl⟩ := sextetChar_of_sextet? hy
      obtain ⟨hzlt, rfl⟩ := sextetChar_of_sextet? hz
      obtain ⟨hwlt, rfl⟩ := sextetChar_of_sextet? hw
      obtain rfl := Option.some.inj h
      rw [encode_group hxlt hylt hzlt hwlt, ih htail]
    · exact hpair
    · exact htriple
  | case5 cs hnil hpair htriple hgroup =>
    rw [decode?] at h
    · cases h
    · exact hnil
    · exact hpair
    · exact htriple
    · exact hgroup

end Reputation.Text.Base64
