import Reputation.Statement
import Reputation.Proofs.Address.NetworkText
/-!
Labels of entities. A label that was read is the label of what was read for the kinds that keep
their text, and no label of a hashed entity reads as an e-mail address: the other kinds either have
marks of their own or print without the sign that addresses need.
-/
namespace Reputation

open Text

theorem Network.at_notMem_label (n : Network) : '@' ∉ n.label.toList :=
  fun hat => absurd (n.isAddressChar_or_slash_label '@' hat) (by decide)

namespace Entity

def hasScheme (cs : List Char) : Bool :=
  (dropStart? "http://".toList cs).isSome || (dropStart? "https://".toList cs).isSome

/-- What a text that reads as an entity says of itself: the marks of its kind, and none of the kinds
that are tried before where these could be mistaken for it. -/
def ReadsAs (s : String) : Entity → Prop
  | url t => t = s ∧ hasScheme s.toList
  | hashedEmail digest => dropStart? ['#', '@'] s.toList = some digest.toList
  | signer key => PublicKey.parse s = .ok key
  | email t => t = s ∧ '@' ∈ s.toList ∧ dropStart? ['#', '@'] s.toList = none ∧
      dropStart? PublicKey.scheme s.toList = none
  | network n => Network.parse? s = some (.ok n)
  | domain t => t = s ∧ '.' ∈ s.toList
  | autonomousSystem n => ∃ m, (dropStart? ['A', 'S'] s.toList).bind (naturalUpTo? 0xffffffff) =
      some m ∧ n = UInt32.ofNat m

theorem readsAs_of_parsePlain {s : String} {e : Entity} (h : parsePlain s = .ok e) :
    ReadsAs s e := by
  unfold parsePlain at h
  split at h
  · rename_i n hn
    cases n with
    | error err => cases h
    | ok n =>
      cases h
      exact hn
  · split at h
    · rename_i hdot
      cases h
      exact ⟨rfl, by simpa using hdot⟩
    · split at h
      · rename_i n hn
        cases h
        exact ⟨n, hn, rfl⟩
      · cases h

theorem readsAs_of_parse {s : String} {e : Entity} (h : parse s = .ok e) : ReadsAs s e := by
  unfold parse at h
  dsimp only at h
  split at h
  · rename_i hscheme
    cases h
    exact ⟨rfl, hscheme⟩
  · split at h
    · rename_i digest hdigest
      cases h
      rw [ReadsAs, hdigest, String.toList_ofList]
    · rename_i hnone
      split at h
      · cases hkey : PublicKey.parse s with
        | error err =>
          rw [hkey] at h
          cases h
        | ok key =>
          rw [hkey] at h
          cases h
          exact hkey
      · rename_i hkey
        split at h
        · rename_i hat
          cases h
          exact ⟨rfl, by simpa using hat, hnone, by simpa using hkey⟩
        · exact readsAs_of_parsePlain h

theorem dropStart?_hashed (digest : String) :
    dropStart? ['#', '@'] (hashedEmail digest).label.toList = some digest.toList := by
  rw [label, String.toList_append]
  exact dropStart?_append _ _

theorem dropStart?_signer (key : PublicKey) :
    dropStart? PublicKey.scheme (signer key).label.toList =
      some (Text.Base64.encode key.bytes) := by
  rw [label, PublicKey.text, String.toList_ofList, PublicKey.textChars]
  exact dropStart?_append _ _

theorem parse_label_hashingEmail_ne {s : String} {e : Entity} (h : parse s = .ok e) (a : String) :
    parse e.hashingEmail.label ≠ .ok (email a) := by
  intro hemail
  obtain ⟨-, hat, hdigest, hkey⟩ := readsAs_of_parse hemail
  cases e with
  | domain t =>
    obtain ⟨rfl, -⟩ := readsAs_of_parse h
    change parse t = .ok (email a) at hemail
    rw [h] at hemail
    cases hemail
  | url t =>
    obtain ⟨rfl, -⟩ := readsAs_of_parse h
    change parse t = .ok (email a) at hemail
    rw [h] at hemail
    cases hemail
  | autonomousSystem n =>
    have hdigit : '@' ∈ (decimalText n.toNat).toList := by
      simpa [hashingEmail, label] using hat
    exact absurd (isDigit_decimalText _ '@' hdigit) (by decide)
  | network n => exact n.at_notMem_label hat
  | email address => cases hdigest.symm.trans (dropStart?_hashed (emailDigest address))
  | hashedEmail digest => cases hdigest.symm.trans (dropStart?_hashed digest)
  | signer key => cases hkey.symm.trans (dropStart?_signer key)

end Entity
end Reputation
