import Reputation.Proofs.Address.NetworkText
import Mathlib.Tactic.Ring
/-!
Networks as sets of addresses. The range of a network holds the addresses that share its leading
bits and no other ones, so of two networks one lies within the other or they have no address in
common. IPv4 networks are those of the mapped addresses, with 96 bits more.
-/
namespace Reputation

/-- The bits of an address, the most significant one at place 0. -/
def Ipv4.bit (a : Ipv4) (place : Nat) : Bool := a.value.testBit (31 - place)

def Ipv6.bit (a : Ipv6) (place : Nat) : Bool := a.value.testBit (127 - place)

def Ipv4.SharesPrefix (a b : Ipv4) (n : Nat) : Prop := ∀ place < n, a.bit place = b.bit place

def Ipv6.SharesPrefix (a b : Ipv6) (n : Nat) : Prop := ∀ place < n, a.bit place = b.bit place

instance (a b : Ipv4) (n : Nat) : Decidable (a.SharesPrefix b n) :=
  inferInstanceAs (Decidable (∀ place < n, _))

theorem shiftRight_eq_iff_testBit {width n a b : Nat} (hn : n ≤ width) (ha : a < 2 ^ width)
    (hb : b < 2 ^ width) : a >>> (width - n) = b >>> (width - n) ↔
      ∀ place < n, a.testBit (width - 1 - place) = b.testBit (width - 1 - place) := by
  constructor
  · intro h place hplace
    have hbit := congrArg (Nat.testBit · (n - 1 - place)) h
    have hindex : width - n + (n - 1 - place) = width - 1 - place := by omega
    simpa only [Nat.testBit_shiftRight, hindex] using hbit
  · intro h
    apply Nat.eq_of_testBit_eq
    intro j
    rw [Nat.testBit_shiftRight, Nat.testBit_shiftRight]
    by_cases hj : j < n
    · have hbit := h (n - 1 - j) (by omega)
      have hindex : width - 1 - (n - 1 - j) = width - n + j := by omega
      rwa [hindex] at hbit
    · -- Beyond the leading bits there is nothing left of either number.
      have hwide : 2 ^ width ≤ 2 ^ (width - n + j) := Nat.pow_le_pow_right (by decide) (by omega)
      rw [Nat.testBit_lt_two_pow (Nat.lt_of_lt_of_le ha hwide),
        Nat.testBit_lt_two_pow (Nat.lt_of_lt_of_le hb hwide)]

theorem Ipv4.sharesPrefix_iff {a b : Ipv4} {n : Nat} (h : n ≤ 32) :
    a.SharesPrefix b n ↔ a.value >>> (32 - n) = b.value >>> (32 - n) :=
  (shiftRight_eq_iff_testBit h a.value_lt b.value_lt).symm

theorem Ipv6.sharesPrefix_iff {a b : Ipv6} {n : Nat} (h : n ≤ 128) :
    a.SharesPrefix b n ↔ a.value >>> (128 - n) = b.value >>> (128 - n) :=
  (shiftRight_eq_iff_testBit h a.value_lt b.value_lt).symm

theorem Bound.ofIpv4_inj {a b : Ipv4} (h : ofIpv4 a = ofIpv4 b) : a = b := by
  have hvalue : 0xffff00000000 + a.value = 0xffff00000000 + b.value := congrArg Bound.value h
  obtain ⟨m, _⟩ := a
  obtain ⟨n, _⟩ := b
  obtain rfl : m = n := Nat.add_left_cancel hvalue
  rfl

theorem mem_block_iff {n m free : Nat} :
    (n >>> free <<< free ≤ m ∧ m ≤ n >>> free <<< free + (1 <<< free - 1)) ↔
      m >>> free = n >>> free := by
  have hpos := Nat.two_pow_pos free
  simp only [Nat.shiftLeft_eq, Nat.shiftRight_eq_div_pow, Nat.one_mul]
  rw [Nat.div_eq_iff hpos]
  omega

theorem blockStart_add {c n free : Nat} (h : 2 ^ free ∣ c) :
    (c + n) >>> free <<< free = c + n >>> free <<< free := by
  obtain ⟨k, rfl⟩ := h
  simp only [Nat.shiftLeft_eq, Nat.shiftRight_eq_div_pow]
  rw [Nat.mul_add_div (Nat.two_pow_pos free)]
  ring

namespace AddressRange

variable {r r' : AddressRange} {free free' q q' : Nat}

theorem contains_iff {p : Bound} :
    r.contains p ↔ r.min.value ≤ p.value ∧ p.value ≤ r.max.value := by
  simp only [contains, Bool.and_eq_true, decide_eq_true_eq]
  rfl

theorem covers_iff : r.covers r' ↔ r.min.value ≤ r'.min.value ∧ r'.max.value ≤ r.max.value := by
  simp only [covers, Bool.and_eq_true, decide_eq_true_eq]
  rfl

theorem covers_iff_subset (h : r'.min ≤ r'.max) :
    r.covers r' ↔ ∀ p, r'.contains p → r.contains p := by
  have hordered : r'.min.value ≤ r'.max.value := h
  constructor
  · intro hcovers p hp
    rw [covers_iff] at hcovers
    rw [contains_iff] at hp ⊢
    omega
  · intro hsubset
    have hmin := hsubset r'.min (contains_iff.mpr ⟨Nat.le_refl _, hordered⟩)
    have hmax := hsubset r'.max (contains_iff.mpr ⟨hordered, Nat.le_refl _⟩)
    exact covers_iff.mpr ⟨(contains_iff.mp hmin).1, (contains_iff.mp hmax).2⟩

/-- The range holds the bounds that have the number `q` before their last `free` bits. -/
def IsBlock (r : AddressRange) (free q : Nat) : Prop :=
  ∀ p, r.contains p ↔ p.value >>> free = q

theorem isBlock_of_ends {n : Nat} (hmin : r.min.value = n >>> free <<< free)
    (hmax : r.max.value = n >>> free <<< free + (1 <<< free - 1)) : r.IsBlock free (n >>> free) := by
  intro p
  rw [contains_iff, hmin, hmax]
  exact mem_block_iff

theorem IsBlock.subset (h : r.IsBlock free q) (h' : r'.IsBlock free' q') (hfree : free ≤ free')
    {p : Bound} (hp : r.contains p) (hp' : r'.contains p) :
    ∀ x, r.contains x → r'.contains x := by
  intro x hx
  have hsame : x.value >>> free = p.value >>> free := ((h x).mp hx).trans ((h p).mp hp).symm
  obtain ⟨more, rfl⟩ := Nat.exists_eq_add_of_le hfree
  rw [h', ← (h' p).mp hp', Nat.shiftRight_add, hsame, ← Nat.shiftRight_add]

theorem IsBlock.disjoint_or_covers (h : r.IsBlock free q) (h' : r'.IsBlock free' q')
    (hr : r.min ≤ r.max) (hr' : r'.min ≤ r'.max) :
    (∀ p, ¬ (r.contains p ∧ r'.contains p)) ∨ r.covers r' ∨ r'.covers r := by
  by_cases hcommon : ∃ p, r.contains p ∧ r'.contains p
  · obtain ⟨p, hp, hp'⟩ := hcommon
    rcases Nat.le_total free free' with hfree | hfree
    · exact .inr (.inr ((covers_iff_subset hr).mpr (h.subset h' hfree hp hp')))
    · exact .inr (.inl ((covers_iff_subset hr').mpr (h'.subset h hfree hp' hp)))
  · exact .inl fun p hp => hcommon ⟨p, hp⟩

end AddressRange

namespace Network

theorem range_v4 (a : Ipv4) {n : Nat} (h : n ≤ 32) : range ⟨.v4 a, n⟩ =
    .ok ⟨.ofIpv4 (a.blockStart (32 - n)), .ofIpv4 (a.blockEnd (32 - n) (Nat.sub_le ..))⟩ :=
  if_neg (Nat.not_lt.mpr h)

theorem range_v6 (a : Ipv6) {n : Nat} (h : n ≤ 128) : range ⟨.v6 a, n⟩ =
    .ok ⟨.ofIpv6 (a.blockStart (128 - n)), .ofIpv6 (a.blockEnd (128 - n) (Nat.sub_le ..))⟩ :=
  if_neg (Nat.not_lt.mpr h)

theorem range_too_long {m : Network} (h : m.address.width < m.length) :
    m.range = .error (.invalidEntity (.label m.text)) :=
  if_pos h

theorem isBlock_v6 {a : Ipv6} {n : Nat} {r : AddressRange} (h : range ⟨.v6 a, n⟩ = .ok r) :
    r.IsBlock (128 - n) (a.value >>> (128 - n)) := by
  have hr := (range_v6 a (length_le_of_range h)).symm.trans h
  obtain rfl := Except.ok.inj hr
  exact AddressRange.isBlock_of_ends rfl rfl

/-- The mapped addresses begin at a multiple of the size of every IPv4 network. -/
theorem range_mapped (a : Ipv4) {n : Nat} (h : n ≤ 32) :
    range ⟨.v6 a.mapped, 96 + n⟩ = range ⟨.v4 a, n⟩ := by
  have hfree : 128 - (96 + n) = 32 - n := by omega
  have hdvd : 2 ^ (32 - n) ∣ 0xffff00000000 :=
    (Nat.pow_dvd_pow 2 (Nat.sub_le 32 n)).trans (by decide)
  have hstart : (0xffff00000000 + a.value) >>> (32 - n) <<< (32 - n) =
      0xffff00000000 + a.value >>> (32 - n) <<< (32 - n) := blockStart_add hdvd
  rw [range_v4 a h, range_v6 a.mapped (by omega)]
  refine congrArg Except.ok (congrArg₂ AddressRange.mk (Bound.ext ?_) (Bound.ext ?_))
  · simpa only [Bound.ofIpv4, Bound.ofIpv6, Ipv6.blockStart, Ipv4.blockStart, Ipv4.mapped, hfree]
      using hstart
  · simp only [Bound.ofIpv4, Bound.ofIpv6, Ipv6.blockEnd, Ipv4.blockEnd, Ipv4.mapped, hfree,
      hstart, Nat.add_assoc]

theorem exists_isBlock {m : Network} {r : AddressRange} (h : m.range = .ok r) :
    ∃ free q, r.IsBlock free q := by
  obtain ⟨a | a, n⟩ := m
  · rw [← range_mapped a (length_le_of_range h)] at h
    exact ⟨_, _, isBlock_v6 h⟩
  · exact ⟨_, _, isBlock_v6 h⟩

theorem contains_v6_iff {a : Ipv6} {n : Nat} {r : AddressRange} (h : range ⟨.v6 a, n⟩ = .ok r)
    (p : Bound) : r.contains p ↔ ∃ b : Ipv6, b.SharesPrefix a n ∧ p = .ofIpv6 b := by
  have hn : n ≤ 128 := length_le_of_range h
  rw [isBlock_v6 h p]
  constructor
  · intro hp
    exact ⟨⟨p.value, p.value_lt⟩, (Ipv6.sharesPrefix_iff hn).mpr hp, rfl⟩
  · rintro ⟨b, hb, rfl⟩
    exact (Ipv6.sharesPrefix_iff hn).mp hb

theorem contains_v4_iff {a : Ipv4} {n : Nat} {r : AddressRange} (h : range ⟨.v4 a, n⟩ = .ok r)
    (p : Bound) : r.contains p ↔ ∃ b : Ipv4, b.SharesPrefix a n ∧ p = .ofIpv4 b := by
  have hn : n ≤ 32 := length_le_of_range h
  obtain rfl := Except.ok.inj ((range_v4 a hn).symm.trans h)
  rw [AddressRange.contains_iff]
  constructor
  · rintro ⟨hmin, hmax⟩
    have hfirst : 0xffff00000000 + (a.blockStart (32 - n)).value ≤ p.value := hmin
    have hlast : p.value ≤ 0xffff00000000 + (a.blockEnd (32 - n) (Nat.sub_le ..)).value := hmax
    have hlt := (a.blockEnd (32 - n) (Nat.sub_le ..)).value_lt
    -- What lies between two mapped addresses is a mapped address.
    let b : Ipv4 := ⟨p.value - 0xffff00000000, by omega⟩
    have hb : b.value >>> (32 - n) = a.value >>> (32 - n) :=
      mem_block_iff.mp ⟨Nat.le_sub_of_add_le' hfirst, Nat.sub_le_iff_le_add'.mpr hlast⟩
    refine ⟨b, (Ipv4.sharesPrefix_iff hn).mpr hb, Bound.ext ?_⟩
    exact (Nat.add_sub_of_le (Nat.le_trans (Nat.le_add_right _ _) hfirst)).symm
  · rintro ⟨b, hb, rfl⟩
    obtain ⟨hmin, hmax⟩ := mem_block_iff.mpr ((Ipv4.sharesPrefix_iff hn).mp hb)
    exact ⟨Nat.add_le_add_left hmin _, Nat.add_le_add_left hmax _⟩

/-- Networks are the addresses with a prefix, of whichever family; lengths beyond the width of the
address are refused. The order of ends by which ranges are compared is inclusion. -/
theorem range_holds_prefix :
    (∀ (a : Ipv4) (n : Nat), n ≤ 32 → ∃ r, range ⟨.v4 a, n⟩ = .ok r ∧
      range ⟨.v6 a.mapped, 96 + n⟩ = .ok r ∧
      ∀ p, r.contains p ↔ ∃ b : Ipv4, b.SharesPrefix a n ∧ p = .ofIpv4 b) ∧
    (∀ (a : Ipv6) (n : Nat), n ≤ 128 → ∃ r, range ⟨.v6 a, n⟩ = .ok r ∧
      ∀ p, r.contains p ↔ ∃ b : Ipv6, b.SharesPrefix a n ∧ p = .ofIpv6 b) ∧
    (∀ m : Network, m.address.width < m.length →
      m.range = .error (.invalidEntity (.label m.text))) ∧
    (∀ (m m' : Network) (r r' : AddressRange), m.range = .ok r → m'.range = .ok r' →
      (∀ p, ¬ (r.contains p ∧ r'.contains p)) ∨ r.covers r' ∨ r'.covers r) ∧
    ∀ r r' : AddressRange, r'.min ≤ r'.max →
      (r.covers r' ↔ ∀ p, r'.contains p → r.contains p) := by
  refine ⟨?_, ?_, fun m => range_too_long, ?_, fun r r' => AddressRange.covers_iff_subset⟩
  · intro a n hn
    have hr := range_v4 a hn
    exact ⟨_, hr, (range_mapped a hn).trans hr, contains_v4_iff hr⟩
  · intro a n hn
    have hr := range_v6 a hn
    exact ⟨_, hr, contains_v6_iff hr⟩
  · intro m m' r r' hr hr'
    obtain ⟨free, q, hblock⟩ := exists_isBlock hr
    obtain ⟨free', q', hblock'⟩ := exists_isBlock hr'
    exact hblock.disjoint_or_covers hblock' (range_inOrder hr) (range_inOrder hr')

/-- Of the three bounds two are not those of addresses in the network: one lies after its last
address, and the other one has the number of an address of it but is no mapped address. -/
theorem range_holds_prefix_hosts :
    ∃ r, range ⟨.v4 ⟨0xc0000207, by decide⟩, 24⟩ = .ok r ∧
      r.contains (.ofIpv4 ⟨0xc00002c8, by decide⟩) ∧
      ¬ r.contains (.ofIpv4 ⟨0xc0000300, by decide⟩) ∧ ¬ r.contains ⟨0xc0000207, by decide⟩ := by
  obtain ⟨hv4, -⟩ := range_holds_prefix
  obtain ⟨r, hr, -, hcontains⟩ := hv4 ⟨0xc0000207, by decide⟩ 24 (by decide)
  refine ⟨r, hr, ?_, ?_, ?_⟩
  · exact (hcontains _).mpr ⟨_, by decide, rfl⟩
  · intro hp
    obtain ⟨b, hb, heq⟩ := (hcontains _).mp hp
    obtain rfl := Bound.ofIpv4_inj heq
    exact absurd hb (by decide)
  · intro hp
    obtain ⟨b, -, heq⟩ := (hcontains _).mp hp
    have hvalue : 0xc0000207 = 0xffff00000000 + b.value := congrArg Bound.value heq
    omega

end Network
end Reputation
