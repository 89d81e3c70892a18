/-!
Reading bytes as UTF-8 without failing. Bytes that begin a sequence but do not go on as one, and
bytes that begin none, read as the replacement character.
-/
namespace Reputation.Text.Utf8

def replacement : Char := '\ufffd'

/-- Reads `more` further bytes of a sequence with the bits `value` so far. The next byte has to lie
between `low` and `high`; those after it may be any continuation bytes. -/
def continueWith : (more low high value : Nat) → List UInt8 → Char × List UInt8
  | 0, _, _, value, bs => (Char.ofNat value, bs)
  | _ + 1, _, _, _, [] => (replacement, [])
  | more + 1, low, high, value, b :: bs =>
    if low ≤ b.toNat ∧ b.toNat ≤ high then
      continueWith more 0x80 0xbf (value * 64 + (b.toNat - 0x80)) bs
    else (replacement, b :: bs)

/-- The character that begins with byte `b`. Second bytes are limited so that no sequence is longer
than it has to be, denotes a surrogate or exceeds the code points. -/
def readChar (b : UInt8) (bs : List UInt8) : Char × List UInt8 :=
  let n := b.toNat
  if n < 0x80 then (Char.ofNat n, bs)
  else if n < 0xc2 then (replacement, bs)
  else if n < 0xe0 then continueWith 1 0x80 0xbf (n - 0xc0) bs
  else if n = 0xe0 then continueWith 2 0xa0 0xbf 0 bs
  else if n = 0xed then continueWith 2 0x80 0x9f 0xd bs
  else if n < 0xf0 then continueWith 2 0x80 0xbf (n - 0xe0) bs
  else if n = 0xf0 then continueWith 3 0x90 0xbf 0 bs
  else if n < 0xf4 then continueWith 3 0x80 0xbf (n - 0xf0) bs
  else if n = 0xf4 then continueWith 3 0x80 0x8f 4 bs
  else (replacement, bs)

theorem length_continueWith (more low high value : Nat) (bs : List UInt8) :
    (continueWith more low high value bs).2.length ≤ bs.length := by
  induction more generalizing low high value bs with
  | zero => simp [continueWith]
  | succ more ih =>
    cases bs with
    | nil => simp [continueWith]
    | cons b bs =>
      unfold continueWith
      split
      · exact Nat.le_succ_of_le (ih ..)
      · simp

theorem length_readChar (b : UInt8) (bs : List UInt8) : (readChar b bs).2.length ≤ bs.length := by
  dsimp only [readChar]
  repeat' split
  all_goals first | exact Nat.le_refl _ | apply length_continueWith

def decodeLossy : List UInt8 → List Char
  | [] => []
  | b :: bs =>
    let next := readChar b bs
    next.1 :: decodeLossy next.2
termination_by bs => bs.length
decreasing_by exact Nat.lt_succ_of_le (length_readChar b bs)

end Reputation.Text.Utf8
