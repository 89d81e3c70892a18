import Reputation.Proofs.Entity.RoundTrip
import Reputation.Proofs.Resolution.Submission
/-!
What labels show of e-mail addresses. Hashing replaces every address that was read as one, so that a
label with the sign of addresses is a URL or stands for a digest. But a text that has the marks of a
hashed address already is kept as it is, whatever follows them.
-/
namespace Reputation

open Text

theorem Hash.Sha256.length_digest (message : Bytes) : (digest message).length = 32 := by
  simp [digest, Bytes.length_bigEndian]

namespace Entity

/-- The text is the base64 of 32 bytes. -/
def IsDigest (digest : String) : Prop :=
  ∃ bytes : Bytes, bytes.length = 32 ∧ Base64.encode bytes = digest.toList

theorem isDigest_iff {digest : String} :
    IsDigest digest ↔ (Base64.decode? digest.toList).any (·.length = 32) := by
  simp only [IsDigest, Option.any_eq_true, decide_eq_true_eq]
  constructor
  · rintro ⟨bytes, hlength, hencode⟩
    exact ⟨bytes, hencode ▸ Base64.decode?_encode bytes, hlength⟩
  · rintro ⟨bytes, hdecode, hlength⟩
    exact ⟨bytes, hlength, Base64.encode_of_decode? hdecode⟩

instance (digest : String) : Decidable (IsDigest digest) := decidable_of_iff _ isDigest_iff.symm

theorem isDigest_emailDigest (address : String) : IsDigest (emailDigest address) :=
  ⟨_, Hash.Sha256.length_digest _, (String.toList_ofList).symm⟩

/-- If the label has the sign of addresses, it is a URL or stands for a digest. -/
def Conceals (label : String) : Prop :=
  '@' ∈ label.toList → hasScheme label.toList ∨ ∃ digest, label = "#@" ++ digest ∧ IsDigest digest

theorem conceals_hashedEmail_iff (digest : String) :
    Conceals (hashedEmail digest).label ↔ IsDigest digest := by
  have hlabel : (hashedEmail digest).label.toList = '#' :: '@' :: digest.toList := by
    rw [label, String.toList_append]
    rfl
  constructor
  · intro h
    rcases h (by simp [hlabel]) with hscheme | ⟨digest', heq, hdigest⟩
    · rw [hlabel, hasScheme_cons (by decide)] at hscheme
      cases hscheme
    · rw [← String.toList_inj, hlabel, String.toList_append] at heq
      have hsame : digest.toList = digest'.toList := (List.cons.inj (List.cons.inj heq).2).2
      rwa [String.toList_inj.mp hsame]
  · exact fun hdigest _ => .inr ⟨digest, rfl, hdigest⟩

theorem at_notMem_domain {s t : String} (h : parse s = .ok (domain t)) : '@' ∉ t.toList := by
  obtain ⟨rfl, -⟩ := readsAs_of_parse h
  intro hat
  unfold parse at h
  dsimp only at h
  split at h
  · cases h
  · split at h
    · cases h
    · split at h
      · cases hkey : PublicKey.parse t <;> simp [hkey, Except.map] at h
      · simp [hat] at h

theorem at_notMem_signer (key : PublicKey) : '@' ∉ (signer key).label.toList := by
  have hlabel : (signer key).label.toList = PublicKey.scheme ++ Base64.encode key.bytes := by
    simp [label, PublicKey.text, PublicKey.textChars]
  rw [hlabel, List.mem_append, not_or]
  exact ⟨by decide, Base64.notMem_encode rfl (by decide) _⟩

theorem at_notMem_autonomousSystem (n : UInt32) : '@' ∉ (autonomousSystem n).label.toList := by
  intro hat
  have hdigit : '@' ∈ (decimalText n.toNat).toList := by simpa [label] using hat
  exact absurd (isDigit_decimalText _ '@' hdigit) (by decide)

/-- Once hashed, the label of what was read conceals, unless it was read as the digest of an address
and is no digest. -/
theorem conceals_label_iff {s : String} {e : Entity} (h : parse s = .ok e) :
    Conceals e.hashingEmail.label ↔ ∀ digest, e = hashedEmail digest → IsDigest digest := by
  cases e with
  | hashedEmail digest =>
    change Conceals (hashedEmail digest).label ↔ _
    rw [conceals_hashedEmail_iff]
    simp
  | email address =>
    exact iff_of_true ((conceals_hashedEmail_iff _).mpr (isDigest_emailDigest address)) (by simp)
  | url t =>
    obtain ⟨rfl, hscheme⟩ := readsAs_of_parse h
    exact iff_of_true (fun _ => .inl hscheme) (by simp)
  | domain t => exact iff_of_true (fun hat => absurd hat (at_notMem_domain h)) (by simp)
  | signer key => exact iff_of_true (fun hat => absurd hat (at_notMem_signer key)) (by simp)
  | network n => exact iff_of_true (fun hat => absurd hat n.at_notMem_label) (by simp)
  | autonomousSystem n =>
    exact iff_of_true (fun hat => absurd hat (at_notMem_autonomousSystem n)) (by simp)

end Entity

namespace NewStatement

open Entity (emailDigest IsDigest Conceals)

variable {s : NewStatement}

def entities (s : NewStatement) : List Entity := s.first :: s.second.toList

theorem labels_hashingEmails (s : NewStatement) :
    s.hashingEmails.labels = s.entities.map fun e => e.hashingEmail.label := by
  rw [labels, hashingEmails, entities]
  cases s.second <;> rfl

theorem Parsed.exists_parse (h : s.Parsed) {e : Entity} (he : e ∈ s.entities) :
    ∃ text, Entity.parse text = .ok e := by
  rcases List.mem_cons.mp he with rfl | he
  · exact h.first
  · exact h.second e (Option.mem_toList.mp he)

/-- All labels of a statement that is published conceal just if what was given as the digest of an
address is one. No address that was given as such is among them, but its digest is. -/
theorem Parsed.conceals_iff (h : s.Parsed) :
    ((∀ label ∈ s.hashingEmails.labels, Conceals label) ↔
      ∀ digest, .hashedEmail digest ∈ s.entities → IsDigest digest) ∧
    ∀ address, .email address ∈ s.entities → address ∉ s.hashingEmails.labels ∧
      "#@" ++ emailDigest address ∈ s.hashingEmails.labels ∧ IsDigest (emailDigest address) := by
  constructor
  · rw [labels_hashingEmails, List.forall_mem_map]
    constructor
    · intro hconceals digest hdigest
      obtain ⟨text, htext⟩ := h.exists_parse hdigest
      exact (Entity.conceals_label_iff htext).mp (hconceals _ hdigest) digest rfl
    · intro hdigests e he
      obtain ⟨text, htext⟩ := h.exists_parse he
      refine (Entity.conceals_label_iff htext).mpr ?_
      rintro digest rfl
      exact hdigests digest he
  · intro address haddress
    constructor
    · intro hlabel
      obtain ⟨text, htext⟩ := h.exists_parse haddress
      obtain ⟨rfl, -⟩ := Entity.readsAs_of_parse htext
      exact h.no_email hlabel address htext
    · refine ⟨?_, Entity.isDigest_emailDigest address⟩
      rw [labels_hashingEmails]
      exact List.mem_map.mpr ⟨_, haddress, rfl⟩

theorem conceals_contact :
    let s : NewStatement :=
      ⟨"abuse_contact", .domain "example.com", some (.email "abuse@example.com")⟩
    (∀ label ∈ s.hashingEmails.labels, Conceals label) ∧
      "abuse@example.com" ∉ s.hashingEmails.labels := by
  intro s
  have hparsed : s.Parsed := by
    refine ⟨⟨"example.com", rfl⟩, ?_⟩
    intro e he
    obtain rfl := Option.some.inj he
    exact ⟨"abuse@example.com", rfl⟩
  obtain ⟨hiff, haddresses⟩ := hparsed.conceals_iff
  refine ⟨hiff.mpr ?_, (haddresses "abuse@example.com" (by simp [s, entities])).1⟩
  intro digest hdigest
  simp [s, entities] at hdigest

/-- An address with the marks of a digest before it is published as it stands. -/
theorem marked_address_exposed :
    let s : NewStatement :=
      ⟨"abuse_contact", .domain "example.com", some (.hashedEmail "abuse@example.com")⟩
    s.Parsed ∧ "#@abuse@example.com" ∈ s.hashingEmails.labels ∧
      ¬ Conceals "#@abuse@example.com" := by
  intro s
  refine ⟨⟨⟨"example.com", rfl⟩, ?_⟩, by decide, ?_⟩
  · intro e he
    obtain rfl := Option.some.inj he
    exact ⟨"#@abuse@example.com", rfl⟩
  · exact mt (Entity.conceals_hashedEmail_iff "abuse@example.com").mp (by decide)

end NewStatement
end Reputation
