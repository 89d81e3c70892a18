import Reputation.Proofs.Address.Spelling
import Reputation.Proofs.Entity.Label
import Reputation.Proofs.Text.Base64
/-!
Labels read back. An entity that was read from a text, or that hides an e-mail address, is what its
label reads as, so two such entities are equal exactly when their labels are.
-/
namespace Reputation

open Text

theorem PublicKey.parse_text (key : PublicKey) : PublicKey.parse key.text = .ok key := by
  have hdecoded : (dropStart? scheme key.text.toList).bind Base64.decode? = some key.bytes := by
    rw [text, String.toList_ofList, textChars, dropStart?_append, Option.bind_some,
      Base64.decode?_encode]
  have hlength : key.bytes.length = 32 := by
    have hpoint := key.isPoint
    unfold Ed25519.Point.decode? at hpoint
    split at hpoint
    · rename_i hbytes
      exact hbytes
    · cases hpoint
  rw [parse, hdecoded]
  simp [ofBytes, hlength, key.isPoint]

namespace Network

theorem label_toList (n : Network) :
    ∃ tail, n.label.toList = n.address.text.toList ++ tail ∧ ':' ∉ tail := by
  unfold label
  split
  · exact ⟨[], by simp⟩
  · refine ⟨'/' :: (decimalText n.length).toList, by simp [text], ?_⟩
    intro hcolon
    have hdigit : ':' ∈ (decimalText n.length).toList := by simpa using hcolon
    exact absurd (isDigit_decimalText _ ':' hdigit) (by decide)

theorem dropStart?_scheme_label (n : Network) :
    dropStart? PublicKey.scheme n.label.toList = none := by
  cases hdrop : dropStart? PublicKey.scheme n.label.toList with
  | none => rfl
  | some key =>
    obtain ⟨tail, hlabel, htail⟩ := n.label_toList
    have hscheme : PublicKey.scheme ++ key = "ed25519".toList ++ ':' :: key := rfl
    have hkey := hlabel.symm.trans ((eq_append_of_dropStart? hdrop).trans hscheme)
    rcases List.append_eq_append_iff.mp hkey with ⟨mid, -, hmid⟩ | ⟨mid, hmid, hrest⟩
    · exact absurd (hmid ▸ List.mem_append_right mid List.mem_cons_self) htail
    · cases mid with
      | nil =>
        rw [List.nil_append] at hrest
        exact absurd (hrest ▸ List.mem_cons_self) htail
      | cons c mid =>
        obtain ⟨rfl, -⟩ := List.cons.inj hrest
        have haddress := n.address.parseChars?_text
        rw [hmid, Ip.parseChars?_eq_none (by decide) (by decide)] at haddress
        cases haddress

end Network

namespace Entity

theorem parse_eq_parsePlain {s : String} (hurl : 'h' ∉ s.toList)
    (hkey : dropStart? PublicKey.scheme s.toList = none) (hat : '@' ∉ s.toList) :
    parse s = parsePlain s := by
  have hhttp : dropStart? "http://".toList s.toList = none := dropStart?_eq_none (by decide) hurl
  have hhttps : dropStart? "https://".toList s.toList = none := dropStart?_eq_none (by decide) hurl
  have hhash : dropStart? ['#', '@'] s.toList = none := dropStart?_eq_none (by decide) hat
  simp only [parse, hhttp, hhttps, hhash, hkey]
  simp [hat]

theorem hasScheme_cons {c : Char} (h : 'h' ≠ c) (cs : List Char) : hasScheme (c :: cs) = false := by
  have hhttp : dropStart? "http://".toList (c :: cs) = none := dropStart?_cons_of_ne h _ cs
  have hhttps : dropStart? "https://".toList (c :: cs) = none := dropStart?_cons_of_ne h _ cs
  rw [hasScheme, hhttp, hhttps]
  rfl

theorem parse_label_hashedEmail (digest : String) :
    parse (hashedEmail digest).label = .ok (hashedEmail digest) := by
  have hurl : hasScheme (hashedEmail digest).label.toList = false := by
    rw [label, String.toList_append]
    exact hasScheme_cons (by decide) _
  rw [parse, ← hasScheme, hurl, dropStart?_hashed]
  simp

theorem parse_label_signer (key : PublicKey) : parse (signer key).label = .ok (signer key) := by
  have hlabel : (signer key).label.toList = PublicKey.scheme ++ Base64.encode key.bytes := by
    simp [label, PublicKey.text, PublicKey.textChars]
  have hurl : hasScheme (signer key).label.toList = false := by
    rw [hlabel]
    exact hasScheme_cons (by decide) _
  have hhash : dropStart? ['#', '@'] (signer key).label.toList = none := by
    rw [hlabel]
    exact dropStart?_cons_of_ne (by decide) _ _
  rw [parse, ← hasScheme, hurl, hhash, dropStart?_signer]
  simp [label, key.parse_text, Except.map]

theorem parse_label_autonomousSystem (n : UInt32) :
    parse (autonomousSystem n).label = .ok (autonomousSystem n) := by
  have hlabel : (autonomousSystem n).label.toList = ['A', 'S'] ++ (decimalText n.toNat).toList := by
    simp [label]
  have hmarks : ∀ c ∈ (autonomousSystem n).label.toList, c = 'A' ∨ c = 'S' ∨ IsDigit c := by
    intro c hc
    rw [hlabel] at hc
    simp only [List.cons_append, List.nil_append, List.mem_cons] at hc
    exact hc.imp id (Or.imp id (isDigit_decimalText _ c))
  have hkey : dropStart? PublicKey.scheme (autonomousSystem n).label.toList = none :=
    dropStart?_eq_none (c := ':') (by decide) fun h => absurd (hmarks _ h) (by decide)
  have haddress : Ip.parseChars? (autonomousSystem n).label.toList = none := by
    have hquad : Ipv4.parseChars? (autonomousSystem n).label.toList = none := by
      cases hparse : Ipv4.parseChars? (autonomousSystem n).label.toList with
      | none => rfl
      | some a =>
        have hfirst := Ipv4.isDigit_or_dot_of_parseChars? hparse 'S' (by simp [hlabel])
        exact absurd hfirst (by decide)
    have hgroups : Ipv6.parseChars? (autonomousSystem n).label.toList = none := by
      cases hparse : Ipv6.parseChars? (autonomousSystem n).label.toList with
      | none => rfl
      | some a => exact absurd (hmarks _ (Ipv6.colon_mem_of_parseChars? hparse)) (by decide)
    simp [Ip.parseChars?, hquad, hgroups]
  have hnetwork : Network.parse? (autonomousSystem n).label = none := by
    have hslash : splitAtFirst? '/' (autonomousSystem n).label.toList = none :=
      splitAtFirst?_eq_none fun h => absurd (hmarks _ h) (by decide)
    simp [Network.parse?, hslash, haddress]
  have hdot : '.' ∉ (autonomousSystem n).label.toList :=
    fun h => absurd (hmarks _ h) (by decide)
  have hnumber : (dropStart? ['A', 'S'] (autonomousSystem n).label.toList).bind
      (naturalUpTo? 0xffffffff) = some n.toNat := by
    rw [hlabel, dropStart?_append, Option.bind_some]
    exact naturalUpTo?_decimalText (Nat.le_of_lt_succ n.toNat_lt)
  rw [parse_eq_parsePlain (fun h => absurd (hmarks _ h) (by decide)) hkey
    (fun h => absurd (hmarks _ h) (by decide)), parsePlain, hnetwork]
  simp [hdot, hnumber]

theorem parse_label_network {n : Network} (h : n.Aligned) :
    parse (network n).label = .ok (network n) := by
  have hurl : 'h' ∉ n.label.toList :=
    fun hmem => absurd (n.isAddressChar_or_slash_label 'h' hmem) (by decide)
  rw [label, parse_eq_parsePlain hurl n.dropStart?_scheme_label n.at_notMem_label, parsePlain,
    Network.parse?_label h]
  rfl

theorem parse_label {s : String} {e : Entity} (h : parse s = .ok e) : parse e.label = .ok e := by
  have hreads := readsAs_of_parse h
  cases e with
  | domain t =>
    obtain ⟨rfl, -⟩ := hreads
    exact h
  | email t =>
    obtain ⟨rfl, -⟩ := hreads
    exact h
  | url t =>
    obtain ⟨rfl, -⟩ := hreads
    exact h
  | autonomousSystem n => exact parse_label_autonomousSystem n
  | network n => exact parse_label_network (Network.aligned_of_parse? hreads)
  | signer key => exact parse_label_signer key
  | hashedEmail digest => exact parse_label_hashedEmail digest

theorem range?_inOrder {e : Entity} {r : AddressRange} (h : e.range? = some r) : r.min ≤ r.max := by
  cases e with
  | network n => exact Network.range?_inOrder h
  | _ => cases h

/-- The entities that a node comes by: read from texts, or put in place of an e-mail address. -/
inductive Obtained : Entity → Prop where
  | parsed {s : String} {e : Entity} (h : parse s = .ok e) : Obtained e
  | hashed (address : String) : Obtained (hashedEmail (emailDigest address))

theorem Obtained.parse_label {e : Entity} (h : e.Obtained) : parse e.label = .ok e := by
  cases h with
  | parsed h => exact Entity.parse_label h
  | hashed address => exact parse_label_hashedEmail _

theorem Obtained.label_inj {e f : Entity} (he : e.Obtained) (hf : f.Obtained) :
    e.label = f.label ↔ e = f := by
  constructor
  · intro hlabel
    have hparse := he.parse_label
    rw [hlabel, hf.parse_label] at hparse
    exact (Except.ok.inj hparse).symm
  · exact congrArg label

theorem Obtained.hashingEmail {e : Entity} (h : e.Obtained) : e.hashingEmail.Obtained := by
  cases e with
  | email address => exact .hashed address
  | _ => exact h

theorem Obtained.label_ne_empty {e : Entity} (h : e.Obtained) : e.label ≠ "" := by
  intro hempty
  have hparse := h.parse_label
  rw [hempty] at hparse
  cases hparse

end Entity

structure NewStatement.Obtained (s : NewStatement) : Prop where
  first : s.first.Obtained
  second : ∀ e, s.second = some e → e.Obtained

theorem NewStatement.Obtained.hashingEmails {s : NewStatement} (h : s.Obtained) :
    s.hashingEmails.Obtained where
  first := h.first.hashingEmail
  second e he := by
    obtain ⟨e', he', rfl⟩ := Option.map_eq_some_iff.mp he
    exact (h.second e' he').hashingEmail

end Reputation
