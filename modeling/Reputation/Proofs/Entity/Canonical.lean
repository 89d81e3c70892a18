import Reputation.Proofs.Entity.RoundTrip
/-!
Labels are canonical names. The kinds that are not numbers keep the very text that they were read
from, so a label gives its entity back and says which of two texts mean the same.
-/
namespace Reputation

open Text

theorem PublicKey.ofBytes_ok {bytes : Bytes} {key : PublicKey} (h : ofBytes bytes = .ok key) :
    key.bytes = bytes := by
  unfold ofBytes at h
  split at h
  · cases h
  · split at h
    · cases h
      rfl
    · cases h

theorem PublicKey.text_of_parse {s : String} {key : PublicKey} (h : parse s = .ok key) :
    key.text = s := by
  unfold parse at h
  split at h
  · rename_i bytes hbytes
    obtain ⟨encoded, hstart, hdecoded⟩ := Option.bind_eq_some_iff.mp hbytes
    rw [text, textChars, ofBytes_ok h, Base64.encode_of_decode? hdecoded,
      ← eq_append_of_dropStart? hstart, String.ofList_toList]
  · cases h

namespace Entity

theorem label_of_parse {s : String} {e : Entity} (h : parse s = .ok e)
    (hnetwork : ∀ n, e ≠ network n) (hsystem : ∀ n, e ≠ autonomousSystem n) : e.label = s := by
  have hreads := readsAs_of_parse h
  cases e with
  | domain t => exact hreads.1
  | email t => exact hreads.1
  | url t => exact hreads.1
  | autonomousSystem n => exact absurd rfl (hsystem n)
  | network n => exact absurd rfl (hnetwork n)
  | signer key => exact PublicKey.text_of_parse hreads
  | hashedEmail digest =>
    have htext : s.toList = "#@".toList ++ digest.toList := eq_append_of_dropStart? hreads
    rw [label, ← String.toList_inj, String.toList_append, htext]

/-- What a text is read as is read from its label again, and the label is the text itself but for
networks and numbers of systems. Labels are equal exactly where the entities are. All of that goes
for what is put in place of e-mail addresses, too. -/
theorem labels_canonical {s t : String} {e f : Entity} (he : parse s = .ok e)
    (hf : parse t = .ok f) :
    parse e.label = .ok e ∧
      ((∀ n, e ≠ network n) → (∀ n, e ≠ autonomousSystem n) → e.label = s) ∧
      (e = f ↔ e.label = f.label) ∧
      (∀ n : NewStatement, n.first = e → (n.second = none ∨ n.second = some f) →
        ∀ x, x = n.hashingEmails.first ∨ n.hashingEmails.second = some x →
          parse x.label = .ok x) ∧
      (e.hashingEmail = f.hashingEmail ↔ e.hashingEmail.label = f.hashingEmail.label) := by
  have hobtained : e.Obtained := .parsed he
  have hobtained' : f.Obtained := .parsed hf
  refine ⟨parse_label he, label_of_parse he, (hobtained.label_inj hobtained').symm, ?_,
    (hobtained.hashingEmail.label_inj hobtained'.hashingEmail).symm⟩
  intro n hfirst hsecond x hx
  have hn : n.Obtained := by
    refine ⟨hfirst ▸ hobtained, ?_⟩
    intro y hy
    rcases hsecond with hnone | hsome
    · rw [hnone] at hy
      cases hy
    · obtain rfl := Option.some.inj (hsome.symm.trans hy)
      exact hobtained'
  rcases hx with rfl | hx
  · exact hn.hashingEmails.first.parse_label
  · exact (hn.hashingEmails.second x hx).parse_label

theorem labels_canonical_contact :
    parse "AS007" = .ok (autonomousSystem 7) ∧ parse "AS7" = .ok (autonomousSystem 7) ∧
      parse "abuse@example.com" = .ok (email "abuse@example.com") ∧
      (email "abuse@example.com").label = "abuse@example.com" ∧
      (autonomousSystem 7).label ≠ "abuse@example.com" ∧
      parse (hashedEmail (emailDigest "abuse@example.com")).label =
        .ok (hashedEmail (emailDigest "abuse@example.com")) := by
  have hsystem : parse "AS007" = .ok (autonomousSystem 7) := rfl
  have hemail : parse "abuse@example.com" = .ok (email "abuse@example.com") := rfl
  obtain ⟨hplain, -, hiff, hhashed, -⟩ := labels_canonical hsystem hemail
  obtain ⟨-, hlabel, -⟩ := labels_canonical hemail hsystem
  refine ⟨hsystem, hplain, hemail, hlabel (by simp) (by simp), ?_, ?_⟩
  · exact fun heq => absurd (hiff.mpr heq) (by simp)
  · exact hhashed ⟨"abuse_contact", _, _⟩ rfl (.inr rfl) _ (.inr rfl)

end Entity
end Reputation
