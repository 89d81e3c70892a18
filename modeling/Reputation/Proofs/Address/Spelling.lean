import Reputation.Proofs.Address.NetworkText
/-!
What the texts of addresses and networks can look like, however they are spelled. An address has
digits, dots and colons only, with four characters at most before its first colon, and a network
has an address before its first slash.
-/
namespace Reputation

open Text

theorem IsAddressChar.not_blank {c : Char} (h : IsAddressChar c) : isBlank c = false := by
  rcases h with h | rfl | rfl
  · exact h.not_blank
  · decide
  · decide

namespace Ipv4

theorem isAddressChar_of_parseChars? {cs : List Char} {a : Ipv4} (h : parseChars? cs = some a) :
    ∀ c ∈ cs, IsAddressChar c :=
  fun c hc => (isDigit_or_dot_of_parseChars? h c hc).imp id .inl

end Ipv4

namespace Ipv6

theorem isDigit_of_group? {cs : List Char} {g : Nat} (h : group? cs = some g) :
    ∀ c ∈ cs, IsDigit c := by
  by_cases hlong : 4 < cs.length
  · rw [group?, if_pos hlong] at h
    cases h
  · rw [group?, if_neg hlong] at h
    exact isDigit_of_digits? (by decide) h

theorem isAddressChar_of_groups? {quad : Bool} {pieces : List (List Char)} {gs : List Nat}
    (h : groups? quad pieces = some gs) : ∀ p ∈ pieces, ∀ c ∈ p, IsAddressChar c := by
  fun_induction groups? quad pieces generalizing gs with
  | case1 => simp
  | case2 p g hg => simpa using fun c hc => .inl (isDigit_of_group? hg c hc)
  | case3 p hg hquad =>
    obtain ⟨a, ha, -⟩ := Option.map_eq_some_iff.mp h
    simpa using Ipv4.isAddressChar_of_parseChars? ha
  | case4 p hg hquad => cases h
  | case5 p ps hps ih =>
    simp only [Option.bind_eq_bind, Option.bind_eq_some_iff] at h
    obtain ⟨g, hg, gs', hgs', -⟩ := h
    intro q hq
    rcases List.mem_cons.mp hq with rfl | hq
    · exact fun c hc => .inl (isDigit_of_group? hg c hc)
    · exact ih hgs' q hq

theorem isAddressChar_of_splitOnChar {quad : Bool} {cs : List Char} {gs : List Nat}
    (h : groups? quad (splitOnChar ':' cs) = some gs) : ∀ c ∈ cs, IsAddressChar c := by
  have hcolon : IsAddressChar ':' := by decide
  exact forall_mem_of_splitOnChar hcolon (isAddressChar_of_groups? h)

theorem isAddressChar_of_side? {quad : Bool} {cs : List Char} {gs : List Nat}
    (h : side? quad cs = some gs) : ∀ c ∈ cs, IsAddressChar c := by
  by_cases hempty : cs = []
  · simp [hempty]
  · rw [side?, if_neg (by simpa using hempty)] at h
    exact isAddressChar_of_splitOnChar h

theorem splitAtGap?_eq_some {cs a b : List Char} (h : splitAtGap? cs = some (a, b)) :
    cs = a ++ "::".toList ++ b := by
  fun_induction splitAtGap? cs generalizing a with
  | case1 cs =>
    cases h
    rfl
  | case2 c cs hgap ih =>
    obtain ⟨⟨a', b'⟩, hrest, heq⟩ := Option.map_eq_some_iff.mp h
    cases heq
    rw [ih hrest]
    rfl
  | case3 => cases h

theorem isAddressChar_of_parseChars? {cs : List Char} {a : Ipv6} (h : parseChars? cs = some a) :
    ∀ c ∈ cs, IsAddressChar c := by
  unfold parseChars? at h
  split at h
  · simp only [Option.bind_eq_bind, Option.bind_eq_some_iff] at h
    obtain ⟨gs, hgs, -⟩ := h
    exact isAddressChar_of_splitOnChar hgs
  · rename_i head tail hgap
    simp only [Option.bind_eq_bind, Option.bind_eq_some_iff] at h
    obtain ⟨hs, hhead, ts, htail, -⟩ := h
    have hcolons : ∀ c ∈ "::".toList, c = ':' := by simp
    rw [splitAtGap?_eq_some hgap]
    simp only [List.mem_append]
    rintro c ((hc | hc) | hc)
    · exact isAddressChar_of_side? hhead c hc
    · obtain rfl := hcolons c hc
      decide
    · exact isAddressChar_of_side? htail c hc

theorem group?_eq_none_of_length {p : List Char} (h : 4 < p.length) : group? p = none := by
  rw [group?, if_pos h]

theorem groups?_eq_none {quad : Bool} {p : List Char} {ps : List (List Char)}
    (hp : group? p = none) (hps : ps ≠ []) : groups? quad (p :: ps) = none := by
  rw [groups?]
  · simp [hp]
  · exact hps

theorem splitAtGap?_colon_start {cs a b : List Char} (h : splitAtGap? (':' :: cs) = some (a, b)) :
    a = [] ∨ ∃ a', a = ':' :: a' := by
  cases cs with
  | nil => cases h
  | cons c cs =>
    by_cases hc : c = ':'
    · subst hc
      cases h
      exact .inl rfl
    · rw [splitAtGap?_colon hc] at h
      obtain ⟨⟨a', b'⟩, -, heq⟩ := Option.map_eq_some_iff.mp h
      cases heq
      exact .inr ⟨a', rfl⟩

theorem parseChars?_eq_none {p cs : List Char} (hp : 4 < p.length) (hcolon : ':' ∉ p) :
    parseChars? (p ++ ':' :: cs) = none := by
  have hgroup := group?_eq_none_of_length hp
  have hpieces (quad : Bool) (ds : List Char) :
      groups? quad (splitOnChar ':' (p ++ ':' :: ds)) = none := by
    rw [splitOnChar_append hcolon]
    exact groups?_eq_none hgroup (splitOnChar_ne_nil ':' ds)
  cases hgap : splitAtGap? (p ++ ':' :: cs) with
  | none => simp [parseChars?, hgap, hpieces]
  | some sides =>
    obtain ⟨⟨a, b⟩, hcs, rfl⟩ := Option.map_eq_some_iff.mp
      ((splitAtGap?_append_of_notMem hcolon (':' :: cs)).symm.trans hgap)
    have hhead : side? false (p ++ a) = none := by
      have hempty : (p ++ a).isEmpty = false := by
        cases p with
        | nil => cases hp
        | cons c p => rfl
      rw [side?, hempty]
      rcases splitAtGap?_colon_start hcs with rfl | ⟨a', rfl⟩
      · simp [splitOnChar_of_notMem hcolon, groups?, hgroup]
      · exact hpieces false a'
    simp [parseChars?, hgap, hhead]

end Ipv6

namespace Ip

theorem isAddressChar_of_parseChars? {cs : List Char} {a : Ip} (h : parseChars? cs = some a) :
    ∀ c ∈ cs, IsAddressChar c := by
  unfold parseChars? at h
  split at h
  · rename_i quad hquad
    exact Ipv4.isAddressChar_of_parseChars? hquad
  · obtain ⟨b, hb, -⟩ := Option.map_eq_some_iff.mp h
    exact Ipv6.isAddressChar_of_parseChars? hb

theorem parseChars?_eq_none_of_mem {cs : List Char} {c : Char} (hc : ¬ IsAddressChar c)
    (h : c ∈ cs) : parseChars? cs = none := by
  cases hparse : parseChars? cs with
  | none => rfl
  | some a => exact absurd (isAddressChar_of_parseChars? hparse c h) hc

theorem parseChars?_eq_none {p cs : List Char} (hp : 4 < p.length) (hcolon : ':' ∉ p) :
    parseChars? (p ++ ':' :: cs) = none := by
  have hquad : Ipv4.parseChars? (p ++ ':' :: cs) = none := by
    cases hparse : Ipv4.parseChars? (p ++ ':' :: cs) with
    | none => rfl
    | some a => exact absurd (by simp) (Ipv4.colon_notMem_of_parseChars? hparse)
  rw [parseChars?, hquad, Ipv6.parseChars?_eq_none hp hcolon]
  rfl

theorem range?_host (a : Ip) : a.host.range? = some (.point (.ofIp a)) := by
  cases a with
  | v4 a => simp [host, width, Network.range?, Network.range, AddressRange.point, Bound.ofIp,
      Except.toOption, Ipv4.blockStart, Ipv4.blockEnd]
  | v6 a => simp [host, width, Network.range?, Network.range, AddressRange.point, Bound.ofIp,
      Except.toOption, Ipv6.blockStart, Ipv6.blockEnd]

end Ip

namespace Network

/-- The part of a text that has to be an address where the text is a network. -/
def addressPart (cs : List Char) : List Char := cs.takeWhile (· ≠ '/')

theorem addressPart_eq_self {cs : List Char} (h : '/' ∉ cs) : addressPart cs = cs := by
  rw [addressPart, List.takeWhile_eq_self_iff]
  intro c hc
  exact decide_eq_true fun heq => h (heq ▸ hc)

theorem addressPart_append {p : List Char} (h : '/' ∉ p) (cs : List Char) :
    addressPart (p ++ cs) = p ++ addressPart cs := by
  refine List.takeWhile_append_of_pos ?_
  intro c hc
  exact decide_eq_true fun heq => h (heq ▸ hc)

theorem parse?_eq_none_iff {s : String} :
    parse? s = none ↔ Ip.parseChars? (addressPart s.toList) = none := by
  unfold parse?
  cases hsplit : splitAtFirst? '/' s.toList with
  | none =>
    rw [addressPart_eq_self (notMem_of_splitAtFirst?_eq_none hsplit)]
    exact Option.map_eq_none_iff
  | some parts =>
    obtain ⟨a, l⟩ := parts
    obtain ⟨hs, ha⟩ := splitAtFirst?_eq_some hsplit
    have hpart : addressPart s.toList = a := by
      rw [hs, addressPart_append ha]
      simp [addressPart]
    rw [hpart]
    exact Option.map_eq_none_iff

theorem eq_of_checked {n m : Network} {e : Error}
    (h : (do
      let range ← n.range
      if range.min = Bound.ofIp n.address then .ok n else .error e) = Except.ok m) : n = m := by
  cases hrange : n.range with
  | error err => simp [hrange, bind, Except.bind] at h
  | ok r =>
    simp only [hrange, bind, Except.bind] at h
    split at h
    · exact Except.ok.inj h
    · cases h

theorem parse?_cases {s : String} {n : Network} (h : parse? s = some (.ok n)) :
    (Ip.parse? s = some n.address ∧ n = n.address.host) ∨
      ∃ a l, s.toList = a ++ '/' :: l ∧ Ip.parseChars? a = some n.address ∧
        naturalUpTo? 255 l = some n.length := by
  unfold parse? at h
  cases hsplit : splitAtFirst? '/' s.toList with
  | none =>
    rw [hsplit] at h
    obtain ⟨address, haddress, h⟩ := Option.map_eq_some_iff.mp h
    obtain rfl := eq_of_checked h
    exact .inl ⟨haddress, rfl⟩
  | some parts =>
    obtain ⟨a, l⟩ := parts
    rw [hsplit] at h
    obtain ⟨address, haddress, h⟩ := Option.map_eq_some_iff.mp h
    dsimp only at h
    cases hlength : naturalUpTo? 255 l with
    | none =>
      rw [hlength] at h
      cases h
    | some length =>
      rw [hlength] at h
      obtain rfl := eq_of_checked h
      exact .inr ⟨a, l, (splitAtFirst?_eq_some hsplit).1, haddress, hlength⟩

theorem not_blank_of_parse? {s : String} {n : Network} (h : parse? s = some (.ok n)) :
    ∀ c ∈ s.toList, isBlank c = false := by
  rcases parse?_cases h with ⟨haddress, -⟩ | ⟨a, l, hs, haddress, hlength⟩
  · exact fun c hc => (Ip.isAddressChar_of_parseChars? haddress c hc).not_blank
  · intro c hc
    rw [hs, List.mem_append, List.mem_cons] at hc
    rcases hc with hc | rfl | hc
    · exact (Ip.isAddressChar_of_parseChars? haddress c hc).not_blank
    · decide
    · rcases isDigit_or_plus_of_naturalUpTo? hlength c hc with hdigit | rfl
      · exact hdigit.not_blank
      · decide

theorem ip_parse?_eq_none {s : String} (h : parse? s = none) : Ip.parse? s = none := by
  by_cases hslash : '/' ∈ s.toList
  · exact Ip.parseChars?_eq_none_of_mem (by decide) hslash
  · rw [parse?_eq_none_iff, addressPart_eq_self hslash] at h
    exact h

end Network
end Reputation
