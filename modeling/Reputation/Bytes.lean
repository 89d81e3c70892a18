import Reputation.Text.Numeral
/-!
Byte strings as lists, their hexadecimal text, and big-endian numbers.
Signed numbers are written in two's complement.
-/
namespace Reputation

abbrev Bytes := List UInt8

namespace Bytes

def ofText (s : String) : Bytes :=
  s.toUTF8.data.toList

/-- The text whose UTF-8 form the bytes are, if there is one. -/
def toText? (bs : Bytes) : Option String :=
  String.fromUTF8? (ByteArray.mk bs.toArray)

/-- The low `width` bytes of `n`, most significant first. -/
def bigEndian : (width n : Nat) → Bytes
  | 0, _ => []
  | w + 1, n => bigEndian w (n / 256) ++ [UInt8.ofNat n]

/-- The number whose base-256 digits are `bs`, most significant first. -/
def toNatBE (bs : Bytes) : Nat :=
  bs.foldl (fun n b => n * 256 + b.toNat) 0

def toNatLE (bs : Bytes) : Nat :=
  bs.foldr (fun b n => n * 256 + b.toNat) 0

/-- The low `width` bytes of `n`, least significant first. -/
def littleEndian : (width n : Nat) → Bytes
  | 0, _ => []
  | w + 1, n => UInt8.ofNat n :: littleEndian w (n / 256)

/-- Two's complement in `width` bytes. -/
def bigEndianInt : (width : Nat) → (n : Int) → Bytes
  | 0, _ => []
  | w + 1, n => bigEndianInt w (n / 256) ++ [UInt8.ofNat (n % 256).toNat]

def hex (bs : Bytes) : String :=
  String.ofList (bs.flatMap fun b => Text.fixedDigits 16 2 b.toNat)

def ofHexChars? : List Char → Option Bytes
  | [] => some []
  | [_] => none
  | a :: b :: cs => do
    let hi ← Text.digitValue? 16 a
    let lo ← Text.digitValue? 16 b
    let rest ← ofHexChars? cs
    some (UInt8.ofNat (hi * 16 + lo) :: rest)

def ofHex? (s : String) : Option Bytes :=
  ofHexChars? s.toList

end Bytes
end Reputation
