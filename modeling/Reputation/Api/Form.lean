import Reputation.Bytes
import Reputation.Text.Blank
import Reputation.Text.Utf8
/-!
Percent-encoding in paths and queries. A percent sign without two hexadecimal digits after it stands
for itself. In queries `+` is a space, and bytes that are no UTF-8 are replaced.
-/
namespace Reputation.Api

def hexDigit? (b : UInt8) : Option Nat :=
  Text.digitValue? 16 (Char.ofNat b.toNat)

def percentDecode : Bytes → Bytes
  | [] => []
  | c :: a :: b :: rest =>
    match c == 0x25, hexDigit? a, hexDigit? b with
    | true, some hi, some lo => UInt8.ofNat (hi * 16 + lo) :: percentDecode rest
    | _, _, _ => c :: percentDecode (a :: b :: rest)
  | c :: rest => c :: percentDecode rest

/-- The text of one segment of a path, unless it is no UTF-8. -/
def decodeSegment? (cs : List Char) : Option String :=
  Bytes.toText? (percentDecode (Bytes.ofText (String.ofList cs)))

def decodeFormText (cs : List Char) : String :=
  let spaced := cs.map fun c => if c = '+' then ' ' else c
  String.ofList (Text.Utf8.decodeLossy (percentDecode (Bytes.ofText (String.ofList spaced))))

/-- The names and values of a query, in order. A name may lack its value. -/
def formPairs (query : List Char) : List (String × String) :=
  ((Text.splitOnChar '&' query).filter (!·.isEmpty)).map fun piece =>
    match Text.splitAtFirst? '=' piece with
    | some (name, value) => (decodeFormText name, decodeFormText value)
    | none => (decodeFormText piece, "")

/-- Looks up parameters that may be given once at most. -/
def parameter (pairs : List (String × String)) (name : String) : Except Unit (Option String) :=
  match pairs.filter (·.1 = name) with
  | [] => .ok none
  | [(_, value)] => .ok (some value)
  | _ => .error ()

end Reputation.Api
