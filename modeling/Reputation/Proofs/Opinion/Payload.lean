import Reputation.Opinion.Payload
import Mathlib.Algebra.Order.Ring.Int
import Mathlib.Tactic.Ring
/-!
The signed bytes determine what is signed. All fields but the comment have a fixed width, so equal
bytes have equal fields, and numbers of a fixed width are determined by their bytes. At the end one
opinion is signed with one key.
-/
namespace Reputation

namespace Bytes

theorem length_bigEndianInt (w : Nat) (n : Int) : (bigEndianInt w n).length = w := by
  induction w generalizing n with
  | zero => rfl
  | succ w ih => simp [bigEndianInt, ih]

theorem bigEndian_eq_bigEndianInt (w n : Nat) : bigEndian w n = bigEndianInt w n := by
  induction w generalizing n with
  | zero => rfl
  | succ w ih =>
    have hdiv : ((n : Int) / 256) = ((n / 256 : Nat) : Int) := by omega
    have hmod : ((n : Int) % 256).toNat = n % 256 := by omega
    have hbyte : UInt8.ofNat (n % 256) = UInt8.ofNat n := by
      rw [← UInt8.toNat_inj]
      simp
    rw [bigEndian, bigEndianInt, ih, hdiv, hmod, hbyte]

theorem length_bigEndian (w n : Nat) : (bigEndian w n).length = w := by
  rw [bigEndian_eq_bigEndianInt, length_bigEndianInt]

theorem dvd_sub_of_bigEndianInt_eq {w : Nat} {a b : Int}
    (h : bigEndianInt w a = bigEndianInt w b) : (256 ^ w : Int) ∣ a - b := by
  induction w generalizing a b with
  | zero => simp
  | succ w ih =>
    obtain ⟨hfront, hlast⟩ := List.append_inj' h rfl
    obtain ⟨k, hk⟩ := ih hfront
    have hbyte : (a % 256).toNat = (b % 256).toNat := by
      have hcast := congrArg UInt8.toNat (List.cons.inj hlast).1
      simp only [UInt8.toNat_ofNat'] at hcast
      omega
    refine ⟨k, ?_⟩
    calc a - b = 256 * (a / 256 - b / 256) := by omega
      _ = 256 * (256 ^ w * k) := by rw [hk]
      _ = 256 ^ (w + 1) * k := by ring

theorem bigEndianInt_inj {w : Nat} {a b : Int} (hab : a - b < 256 ^ w) (hba : b - a < 256 ^ w)
    (h : bigEndianInt w a = bigEndianInt w b) : a = b := by
  have hzero : a - b = 0 := by
    refine Int.eq_zero_of_abs_lt_dvd (dvd_sub_of_bigEndianInt_eq h) ?_
    rw [abs_lt]
    omega
  omega

theorem bigEndian_inj {w a b : Nat} (ha : a < 256 ^ w) (hb : b < 256 ^ w)
    (h : bigEndian w a = bigEndian w b) : a = b := by
  rw [bigEndian_eq_bigEndianInt, bigEndian_eq_bigEndianInt] at h
  have ha' : (a : Int) < 256 ^ w := by exact_mod_cast ha
  have hb' : (b : Int) < 256 ^ w := by exact_mod_cast hb
  have heq := bigEndianInt_inj (by omega) (by omega) h
  omega

theorem ofText_inj {s t : String} : ofText s = ofText t ↔ s = t := by
  constructor
  · intro h
    exact String.toByteArray_inj.mp (ByteArray.ext (Array.toList_inj.mp h))
  · exact congrArg ofText

end Bytes

/-- The opinion as it was signed, without the number under which a store keeps it. -/
def Opinion.signed (o : Opinion) : SignedOpinion := ⟨o.body, o.signature⟩

namespace OpinionBody

theorem int64_inj {a b : Int64}
    (h : Bytes.bigEndianInt 8 a.toInt = Bytes.bigEndianInt 8 b.toInt) : a.toInt = b.toInt := by
  have ha := a.toInt_lt
  have ha' := a.le_toInt
  have hb := b.toInt_lt
  have hb' := b.le_toInt
  exact Bytes.bigEndianInt_inj (by omega) (by omega) h

theorem sub_seconds_lt (a b : Instant) : a.seconds - b.seconds < 256 ^ 8 := by
  have ha := a.seconds_le
  have hb := b.seconds_ge
  simp only [Instant.minSeconds, Instant.maxSeconds] at *
  omega

theorem fields_of_payload_eq {a b : OpinionBody} (h : a.payload = b.payload) :
    a.statementId = b.statementId ∧ a.signerId = b.signerId ∧ a.date.seconds = b.date.seconds ∧
      a.valid = b.valid ∧ a.serial = b.serial ∧ a.certainty = b.certainty ∧
      a.commentBytes = b.commentBytes := by
  simp only [payload, List.append_assoc] at h
  obtain ⟨-, h⟩ := List.append_inj h rfl
  obtain ⟨hstatement, h⟩ := List.append_inj h (by simp only [Bytes.length_bigEndianInt])
  obtain ⟨hsigner, h⟩ := List.append_inj h (by simp only [Bytes.length_bigEndianInt])
  obtain ⟨hdate, h⟩ := List.append_inj h (by simp only [Bytes.length_bigEndianInt])
  obtain ⟨hvalid, h⟩ := List.append_inj h rfl
  obtain ⟨hserial, h⟩ := List.append_inj h (by simp only [Bytes.length_bigEndian])
  obtain ⟨hcertainty, h⟩ := List.append_inj h (by simp only [Bytes.length_bigEndianInt])
  obtain ⟨-, hcomment⟩ := List.append_inj h (by simp only [Bytes.length_bigEndian])
  refine ⟨?_, ?_, ?_, ?_, ?_, ?_, hcomment⟩
  · exact (StatementId.eq_iff _ _).mpr (int64_inj hstatement)
  · exact (SignerId.eq_iff _ _).mpr (int64_inj hsigner)
  · exact Bytes.bigEndianInt_inj (sub_seconds_lt _ _) (sub_seconds_lt _ _) hdate
  · have hbyte := (List.cons.inj hvalid).1
    cases ha : a.valid <;> cases hb : b.valid <;> simp [ha, hb] at hbyte ⊢
  · exact UInt32.toNat_inj.mp (Bytes.bigEndian_inj a.serial.toNat_lt b.serial.toNat_lt hserial)
  · have ha := a.certainty.toInt_lt
    have ha' := a.certainty.le_toInt
    have hb := b.certainty.toInt_lt
    have hb' := b.certainty.le_toInt
    exact Int32.toInt_inj.mp (Bytes.bigEndianInt_inj (by omega) (by omega) hcertainty)

/-- Two opinions have the same bytes exactly when they state the same, however long their comments
are: a length field that has reached its greatest value does not confuse comments, which come
last. -/
theorem payload_eq_iff {a b : OpinionBody} :
    a.payload = b.payload ↔
      a.statementId = b.statementId ∧ a.signerId = b.signerId ∧ a.date.seconds = b.date.seconds ∧
        a.valid = b.valid ∧ a.serial = b.serial ∧ a.certainty = b.certainty ∧
        a.comment.getD "" = b.comment.getD "" := by
  constructor
  · intro h
    obtain ⟨hstatement, hsigner, hdate, hvalid, hserial, hcertainty, hcomment⟩ :=
      fields_of_payload_eq h
    exact ⟨hstatement, hsigner, hdate, hvalid, hserial, hcertainty, Bytes.ofText_inj.mp hcomment⟩
  · rintro ⟨hstatement, hsigner, hdate, hvalid, hserial, hcertainty, hcomment⟩
    have hbytes : a.commentBytes = b.commentBytes := Bytes.ofText_inj.mpr hcomment
    simp only [payload, hstatement, hsigner, hdate, hvalid, hserial, hcertainty, hbytes]

end OpinionBody

def specimenKey : SecretKey where
  seed := List.replicate 32 1
  publicKey := ⟨[138, 136, 227, 221, 116, 9, 241, 149, 253, 82, 219, 45, 60, 186, 93, 114, 202, 103,
    9, 191, 29, 148, 18, 27, 243, 116, 136, 1, 180, 15, 111, 92], by decide +kernel⟩
  seed_length := rfl
  publicKey_eq := by decide +kernel

def specimenBody : OpinionBody := ⟨⟨2⟩, ⟨1⟩, .epoch, true, 1, 3, none⟩

def specimen : Opinion := ⟨⟨1⟩, specimenBody, Ed25519.sign specimenKey.seed specimenBody.payload⟩

/-- A later opinion that its signer did not sign. -/
def forgery : Opinion := ⟨⟨2⟩, { specimenBody with serial := 2, certainty := -9 }, []⟩

theorem specimen_verifies : specimen.verifies specimenKey.publicKey = true := by
  decide +kernel

theorem forgery_not_verifies : forgery.verifies specimenKey.publicKey = false := by
  decide +kernel

end Reputation
