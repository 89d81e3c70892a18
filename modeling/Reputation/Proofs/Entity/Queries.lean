import Reputation.Entity.Descriptor
import Reputation.Proofs.Entity.Canonical
/-!
Queries in the words of statements. A query names an entity as statements do where the text is the
label, but for white space, which queries leave out, and for e-mail addresses that begin like a
network. Addresses and networks may be spelled in any way.
-/
namespace Reputation

open Text

namespace Network

theorem parse?_eq_none_of_cons {s : String} {c : Char} {cs : List Char} (hs : s.toList = c :: cs)
    (hslash : c ≠ '/') (hc : ¬ IsAddressChar c) : parse? s = none := by
  rw [parse?_eq_none_iff, hs]
  have hpart : addressPart ([c] ++ cs) = [c] ++ addressPart cs :=
    addressPart_append (by simpa using Ne.symm hslash) cs
  exact hpart ▸ Ip.parseChars?_eq_none_of_mem hc List.mem_cons_self

theorem parse?_eq_none_of_scheme {s : String} {cs : List Char}
    (hs : s.toList = PublicKey.scheme ++ cs) : parse? s = none := by
  rw [parse?_eq_none_iff, hs, addressPart_append (by decide)]
  exact Ip.parseChars?_eq_none (p := "ed25519".toList) (by decide) (by decide)

end Network

namespace Entity

theorem exists_of_hasScheme {cs : List Char} (h : hasScheme cs) : ∃ rest, cs = 'h' :: rest := by
  rcases Bool.or_eq_true_iff.mp h with h | h
  · obtain ⟨rest, hrest⟩ := Option.isSome_iff_exists.mp h
    exact ⟨_, eq_append_of_dropStart? hrest⟩
  · obtain ⟨rest, hrest⟩ := Option.isSome_iff_exists.mp h
    exact ⟨_, eq_append_of_dropStart? hrest⟩

theorem network_parse?_eq_none {s : String} {e : Entity} (h : parse s = .ok e)
    (hnetwork : ∀ n, e ≠ network n) (hemail : ∀ a, e ≠ email a) : Network.parse? s = none := by
  unfold parse at h
  dsimp only at h
  split at h
  · rename_i hscheme
    obtain ⟨rest, hs⟩ := exists_of_hasScheme hscheme
    exact Network.parse?_eq_none_of_cons hs (by decide) (by decide)
  · split at h
    · rename_i digest hdigest
      have hs : s.toList = '#' :: '@' :: digest := eq_append_of_dropStart? hdigest
      exact Network.parse?_eq_none_of_cons hs (by decide) (by decide)
    · split at h
      · rename_i hkey
        obtain ⟨encoded, hencoded⟩ := Option.isSome_iff_exists.mp hkey
        exact Network.parse?_eq_none_of_scheme (eq_append_of_dropStart? hencoded)
      · split at h
        · cases h
          exact absurd rfl (hemail s)
        · unfold parsePlain at h
          split at h
          · rename_i n _
            cases n with
            | error err => cases h
            | ok n =>
              cases h
              exact absurd rfl (hnetwork n)
          · assumption

theorem exists_not_blank {s : String} {e : Entity} (h : parse s = .ok e) :
    ∃ c ∈ s.toList, isBlank c = false := by
  have hreads := readsAs_of_parse h
  cases e with
  | domain t => exact ⟨'.', hreads.2, by decide⟩
  | email t => exact ⟨'@', hreads.2.1, by decide⟩
  | autonomousSystem n =>
    obtain ⟨m, hm, -⟩ := hreads
    obtain ⟨digits, hdigits, -⟩ := Option.bind_eq_some_iff.mp hm
    exact ⟨'A', eq_append_of_dropStart? hdigits ▸ List.mem_cons_self, by decide⟩
  | network n =>
    have hne : s.toList ≠ [] := by
      intro hnil
      obtain rfl : s = "" := String.toList_eq_nil_iff.mp hnil
      cases h
    obtain ⟨c, hc⟩ := List.exists_mem_of_ne_nil _ hne
    exact ⟨c, hc, Network.not_blank_of_parse? hreads c hc⟩
  | signer key =>
    have hs : s = key.text := (PublicKey.text_of_parse hreads).symm
    refine ⟨':', ?_, by decide⟩
    rw [hs, PublicKey.text, String.toList_ofList]
    exact List.mem_append_left _ (by decide)
  | url t =>
    obtain ⟨rest, hs⟩ := exists_of_hasScheme hreads.2
    exact ⟨'h', hs ▸ List.mem_cons_self, by decide⟩
  | hashedEmail digest =>
    exact ⟨'#', eq_append_of_dropStart? hreads ▸ List.mem_cons_self, by decide⟩

theorem trim_of_autonomousSystem {s : String} {k : UInt32}
    (h : parse s = .ok (autonomousSystem k)) : trim s = s := by
  obtain ⟨m, hm, -⟩ := readsAs_of_parse h
  obtain ⟨digits, hdigits, hnumber⟩ := Option.bind_eq_some_iff.mp hm
  refine trim_eq_self ?_
  rw [eq_append_of_dropStart? hdigits]
  intro c hc
  rcases List.mem_append.mp hc with hc | hc
  · simp only [List.mem_cons, List.not_mem_nil, or_false] at hc
    rcases hc with rfl | rfl
    · decide
    · decide
  · rcases isDigit_or_plus_of_naturalUpTo? hnumber c hc with hdigit | rfl
    · exact hdigit.not_blank
    · decide

theorem range?_eq_none {e : Entity} (h : ∀ n, e ≠ network n) : e.range? = none := by
  cases e with
  | network n => exact absurd rfl (h n)
  | _ => rfl

/-- Numbers of systems are the one kind besides networks with more than one spelling. -/
theorem eq_label_iff {s : String} {e : Entity} (h : parse s = .ok e)
    (hnetwork : ∀ n, e ≠ network n) : s = e.label ↔ ∀ k, e = autonomousSystem k → s = e.label := by
  constructor
  · exact fun hlabel _ _ => hlabel
  · intro hsystem
    by_cases hnumber : ∃ k, e = autonomousSystem k
    · obtain ⟨k, hk⟩ := hnumber
      exact hsystem k hk
    · exact (label_of_parse h hnetwork fun k hk => hnumber ⟨k, hk⟩).symm

theorem trim_of_trim_eq_label {s : String} {e : Entity} (h : parse s = .ok e)
    (hnetwork : ∀ n, e ≠ network n) (hlabel : trim s = e.label) : trim s = s := by
  by_cases hnumber : ∃ k, e = autonomousSystem k
  · obtain ⟨k, rfl⟩ := hnumber
    exact trim_of_autonomousSystem h
  · rw [hlabel, label_of_parse h hnetwork fun k hk => hnumber ⟨k, hk⟩]

end Entity

namespace Descriptor

theorem parse_network {s : String} {n : Network} (hne : s ≠ "")
    (h : Network.parse? s = some (.ok n)) :
    ∃ d, parse s = .ok d ∧ d.range? = n.range? ∧
      ((n.length = n.address.width → '/' ∉ s.toList) → d.label = n.label) := by
  have htrim : trim s = s := trim_eq_self (Network.not_blank_of_parse? h)
  rcases Network.parse?_cases h with ⟨haddress, hhost⟩ | ⟨a, l, hs, -, -⟩
  · refine ⟨address n.address, by simp [parse, htrim, hne, haddress], ?_, ?_⟩
    · rw [hhost]
      exact (Ip.range?_host n.address).symm
    · intro _
      have hlength : n.length = n.address.width := congrArg Network.length hhost
      rw [Network.label, if_pos hlength, label]
  · have hslash : '/' ∈ s.toList := hs ▸ List.mem_append_right a List.mem_cons_self
    have hnone : Ip.parse? s = none := Ip.parseChars?_eq_none_of_mem (by decide) hslash
    refine ⟨network n, by simp [parse, htrim, hne, hnone, h, Except.map], rfl, ?_⟩
    intro hbare
    rw [Network.label, if_neg fun hlength => hbare hlength hslash, label]

theorem parse_name {s : String} (hne : trim s ≠ "") (h : Network.parse? (trim s) = none) :
    parse s = .ok (name (trim s)) := by
  have hempty : (trim s).isEmpty = false := by simpa using hne
  simp [parse, hempty, Network.ip_parse?_eq_none h, h]

theorem eq_name_of_range? {s : String} {d : Descriptor} (h : parse s = .ok d)
    (hrange : d.range? = none) : d = name (trim s) ∧ Network.parse? (trim s) = none := by
  unfold parse at h
  dsimp only at h
  split at h
  · cases h
  · split at h
    · cases h
      cases hrange
    · split at h
      · rename_i n hn
        cases n with
        | error err => cases h
        | ok n =>
          cases h
          obtain ⟨r, hr, -⟩ := Network.aligned_of_parse? hn
          simp [range?, Network.range?, hr, Except.toOption] at hrange
      · rename_i hnone
        cases h
        exact ⟨rfl, hnone⟩

theorem exists_range?_eq_none_iff {s : String} (hne : trim s ≠ "") :
    (∃ d, parse s = .ok d ∧ d.range? = none) ↔ Network.parse? (trim s) = none := by
  constructor
  · rintro ⟨d, hd, hnone⟩
    exact (eq_name_of_range? hd hnone).2
  · intro hnone
    exact ⟨name (trim s), parse_name hne hnone, rfl⟩

/-- The query of the text looks for the entity by the label of its statements and by its range. -/
def Asks (s : String) (e : Entity) : Prop :=
  ∃ d, parse s = .ok d ∧ d.label = e.label ∧ d.range? = e.range?

theorem asks_iff_of_range? {s : String} {e : Entity} (hne : trim s ≠ "") (h : e.range? = none) :
    Asks s e ↔ Network.parse? (trim s) = none ∧ trim s = e.label := by
  rw [Asks, h]
  constructor
  · rintro ⟨d, hd, hlabel, hnone⟩
    obtain ⟨rfl, hparse⟩ := eq_name_of_range? hd hnone
    exact ⟨hparse, hlabel⟩
  · rintro ⟨hparse, hlabel⟩
    exact ⟨name (trim s), parse_name hne hparse, hlabel, rfl⟩

/-- A text that names an entity is a query for its addresses unless the query sees a network in it
where the statement sees none. Leaving out single addresses with a length, it is a query for the
entity itself if it also is as the label has it: without white space at its ends, and with the
number of a system as it is printed. -/
theorem parse_agrees_iff {s : String} {e : Entity} (h : Entity.parse s = .ok e) :
    ((∃ d, parse s = .ok d ∧ d.range? = e.range?) ↔
        (∃ n, e = .network n) ∨ Network.parse? (trim s) = none) ∧
      ((∀ n, e = .network n → n.length = n.address.width → '/' ∉ s.toList) →
        (Asks s e ↔ trim s = s ∧ (∀ a, e = .email a → Network.parse? s = none) ∧
          ∀ k, e = .autonomousSystem k → s = e.label)) := by
  obtain ⟨c, hc, hblank⟩ := Entity.exists_not_blank h
  have hne : trim s ≠ "" := trim_ne_empty hc hblank
  by_cases hnetwork : ∃ n, e = .network n
  · obtain ⟨n, rfl⟩ := hnetwork
    have hn : Network.parse? s = some (.ok n) := Entity.readsAs_of_parse h
    have htrim : trim s = s := trim_eq_self (Network.not_blank_of_parse? hn)
    obtain ⟨d, hd, hrange, hlabel⟩ := parse_network (htrim ▸ hne) hn
    refine ⟨iff_of_true ⟨d, hd, hrange⟩ (.inl ⟨n, rfl⟩), ?_⟩
    intro hbare
    refine iff_of_true ⟨d, hd, hlabel (hbare n rfl), hrange⟩ ⟨htrim, ?_, ?_⟩
    · intro a ha
      cases ha
    · intro k hk
      cases hk
  · have hother : ∀ n, e ≠ .network n := fun n hn => hnetwork ⟨n, hn⟩
    have hrange := Entity.range?_eq_none hother
    rw [asks_iff_of_range? hne hrange, hrange, exists_range?_eq_none_iff hne,
      or_iff_right hnetwork, ← Entity.eq_label_iff h hother]
    refine ⟨Iff.rfl, fun _ => ?_⟩
    constructor
    · rintro ⟨hparse, hlabel⟩
      have htrim := Entity.trim_of_trim_eq_label h hother hlabel
      rw [htrim] at hparse hlabel
      exact ⟨htrim, fun _ _ => hparse, hlabel⟩
    · rintro ⟨htrim, hemail, hlabel⟩
      rw [htrim]
      refine ⟨?_, hlabel⟩
      by_cases haddress : ∃ a, e = .email a
      · obtain ⟨a, ha⟩ := haddress
        exact hemail a ha
      · exact Entity.network_parse?_eq_none h hother fun a ha => haddress ⟨a, ha⟩

/-- However a network is spelled, it is looked for under the label that its statements have. -/
theorem parse_agrees_iff_respelled :
    ∃ n : Network, Entity.parse "2001:DB8:0::/032" = .ok (.network n) ∧
      n.label = "2001:db8::/32" ∧ Asks "2001:DB8:0::/032" (.network n) := by
  obtain ⟨n, hn, hlabel, hshort⟩ : ∃ n : Network,
      Entity.parse "2001:DB8:0::/032" = .ok (.network n) ∧ n.label = "2001:db8::/32" ∧
        n.length ≠ n.address.width :=
    ⟨_, rfl, rfl, by decide⟩
  obtain ⟨-, hasks⟩ := parse_agrees_iff hn
  have hbare : ∀ m, Entity.network n = .network m → m.length = m.address.width →
      '/' ∉ "2001:DB8:0::/032".toList := by
    intro m hm hlength
    cases hm
    exact absurd hlength hshort
  refine ⟨n, hn, hlabel, (hasks hbare).mpr ⟨rfl, ?_, ?_⟩⟩
  · intro a ha
    cases ha
  · intro k hk
    cases hk

/-- A number of a system with leading zeros, a name after a blank, a mailbox that begins like a
network, and a single address with its length. -/
theorem queries_miss_statements :
    (Entity.parse "AS007" = .ok (.autonomousSystem 7) ∧
        ¬ Asks "AS007" (.autonomousSystem 7)) ∧
      (Entity.parse " example.com" = .ok (.domain " example.com") ∧
        ¬ Asks " example.com" (.domain " example.com")) ∧
      (Entity.parse "192.0.2.0/24@example.com" = .ok (.email "192.0.2.0/24@example.com") ∧
        ∀ d, parse "192.0.2.0/24@example.com" ≠ .ok d) ∧
      (Entity.parse "192.0.2.7/32" = .ok (.network ⟨.v4 ⟨0xc0000207, by decide⟩, 32⟩) ∧
        ¬ Asks "192.0.2.7/32" (.network ⟨.v4 ⟨0xc0000207, by decide⟩, 32⟩)) := by
  refine ⟨⟨rfl, ?_⟩, ⟨rfl, ?_⟩, ⟨rfl, ?_⟩, rfl, ?_⟩
  · rintro ⟨d, hd, hlabel, -⟩
    have hname : parse "AS007" = .ok (name "AS007") := rfl
    cases hd.symm.trans hname
    exact absurd hlabel (by decide)
  · rintro ⟨d, hd, hlabel, -⟩
    have hname : parse " example.com" = .ok (name "example.com") := rfl
    cases hd.symm.trans hname
    exact absurd hlabel (by decide)
  · intro d hd
    have hrefused : parse "192.0.2.0/24@example.com" =
        .error (.invalidEntity (.label "192.0.2.0/24@example.com")) := rfl
    cases hd.symm.trans hrefused
  · rintro ⟨d, hd, hlabel, -⟩
    have hsized : parse "192.0.2.7/32" = .ok (network ⟨.v4 ⟨0xc0000207, by decide⟩, 32⟩) := rfl
    cases hd.symm.trans hsized
    exact absurd hlabel (by decide)

end Descriptor
end Reputation
