import Reputation.Entity.Label
import Reputation.Proofs.Address.IpText
/-!
Networks and their labels. The range of a network has its bounds in order. A network that was read
from some text has no bits beyond its length, and its label is read as that network again.
-/
namespace Reputation

open Text

namespace Network

theorem range_inOrder {n : Network} {r : AddressRange} (h : n.range = .ok r) : r.min ≤ r.max := by
  unfold range at h
  split at h
  · cases h
  · split at h <;> cases h
    · exact Nat.add_le_add_left (Nat.le_add_right _ _) _
    · exact Nat.le_add_right _ _

theorem range?_inOrder {n : Network} {r : AddressRange} (h : n.range? = some r) :
    r.min ≤ r.max := by
  cases hn : n.range with
  | error e => simp [range?, hn, Except.toOption] at h
  | ok q =>
    simp only [range?, hn, Except.toOption, Option.some.injEq] at h
    exact h ▸ range_inOrder hn

/-- The length fits the family, and the address is the first one of the network. -/
def Aligned (n : Network) : Prop := ∃ r, n.range = .ok r ∧ r.min = Bound.ofIp n.address

theorem length_le_of_range {n : Network} {r : AddressRange} (h : n.range = .ok r) :
    n.length ≤ n.address.width := by
  unfold range at h
  split at h
  · cases h
  · omega

theorem Aligned.length_le {n : Network} (h : n.Aligned) : n.length ≤ n.address.width := by
  obtain ⟨r, hr, -⟩ := h
  exact length_le_of_range hr

theorem aligned_of_parse? {s : String} {n : Network} (h : parse? s = some (.ok n)) : n.Aligned := by
  obtain ⟨address, -, h⟩ := Option.map_eq_some_iff.mp h
  dsimp only at h
  split at h
  · cases h
  · rename_i length _
    cases hrange : Network.range ⟨address, length⟩ with
    | error e => simp [hrange, bind, Except.bind] at h
    | ok r =>
      simp only [hrange, bind, Except.bind] at h
      split at h
      · rename_i hmin
        cases h
        exact ⟨r, hrange, hmin⟩
      · cases h

theorem parse?_of_bare {s : String} {n : Network} (h : n.Aligned) (hslash : '/' ∉ s.toList)
    (haddress : Ip.parseChars? s.toList = some n.address) (hlength : n.length = n.address.width) :
    parse? s = some (.ok n) := by
  obtain ⟨r, hr, hmin⟩ := h
  obtain ⟨address, length⟩ := n
  obtain rfl : length = address.width := hlength
  simp [parse?, splitAtFirst?_eq_none hslash, haddress, hr, hmin, bind, Except.bind]

theorem parse?_of_sized {s : String} {n : Network} (h : n.Aligned) {address length : List Char}
    (hs : s.toList = address ++ '/' :: length) (hslash : '/' ∉ address)
    (haddress : Ip.parseChars? address = some n.address)
    (hlength : naturalUpTo? 255 length = some n.length) : parse? s = some (.ok n) := by
  obtain ⟨r, hr, hmin⟩ := h
  simp [parse?, hs, splitAtFirst?_append hslash, haddress, hlength, hr, hmin, bind, Except.bind]

theorem slash_notMem_text (a : Ip) : '/' ∉ a.text.toList :=
  fun hslash => absurd (a.isAddressChar_text '/' hslash) (by decide)

theorem width_le (a : Ip) : a.width ≤ 128 := by
  cases a with
  | v4 a => exact Nat.le_add_right 32 96
  | v6 a => exact Nat.le_refl 128

theorem parse?_label {n : Network} (h : n.Aligned) : parse? n.label = some (.ok n) := by
  have haddress := n.address.parseChars?_text
  have hslash := slash_notMem_text n.address
  unfold label
  split
  · rename_i hwidth
    exact parse?_of_bare h hslash haddress hwidth
  · have hlength : n.length ≤ 255 := (h.length_le.trans (width_le _)).trans (by decide)
    have htext : n.text.toList = n.address.text.toList ++ '/' :: (decimalText n.length).toList := by
      simp [text]
    exact parse?_of_sized h htext hslash haddress (naturalUpTo?_decimalText hlength)

theorem isAddressChar_or_slash_text (n : Network) :
    ∀ c ∈ n.text.toList, IsAddressChar c ∨ c = '/' := by
  intro c hc
  simp only [text, String.toList_append, List.mem_append] at hc
  rcases hc with (hc | hc) | hc
  · exact .inl (n.address.isAddressChar_text c hc)
  · exact .inr (by simpa using hc)
  · exact .inl (.inl (isDigit_decimalText _ c hc))

theorem isAddressChar_or_slash_label (n : Network) :
    ∀ c ∈ n.label.toList, IsAddressChar c ∨ c = '/' := by
  unfold label
  split
  · exact fun c hc => .inl (n.address.isAddressChar_text c hc)
  · exact n.isAddressChar_or_slash_text

end Network
end Reputation
