import Reputation.Address.Ip
import Reputation.Text.Blank
import Reputation.Text.Numeral
/-!
Addresses as text. Octets have no leading zeros. Eight groups may be shortened once by `::`, which
stands for at least one group, and may end in a dotted quad in place of two groups.
Printing shortens the first longest run of two or more zero groups; mapped addresses end dotted.
-/
namespace Reputation

open Text

/-- One to three digits, without a leading zero, of value 255 at most. -/
def Ipv4.octet? (cs : List Char) : Option Nat :=
  if 3 < cs.length || (cs.head? = some '0' && 1 < cs.length) then none
  else (digits? 10 cs).filter (· ≤ 255)

def Ipv4.parseChars? (cs : List Char) : Option Ipv4 :=
  match splitOnChar '.' cs with
  | [a, b, c, d] => do
    ofNat? ((((← octet? a) * 256 + (← octet? b)) * 256 + (← octet? c)) * 256 + (← octet? d))
  | _ => none

def Ipv4.text (a : Ipv4) : String :=
  ".".intercalate (a.octets.map decimalText)

namespace Ipv6

def group? (cs : List Char) : Option Nat :=
  if 4 < cs.length then none else digits? 16 cs

/-- The groups of the pieces between colons. The last piece may be a dotted quad if `quad`. -/
def groups? (quad : Bool) : List (List Char) → Option (List Nat)
  | [] => some []
  | [p] =>
    match group? p with
    | some g => some [g]
    | none =>
      if quad then (Ipv4.parseChars? p).map fun a => [a.value / 65536, a.value % 65536] else none
  | p :: ps => do some ((← group? p) :: (← groups? quad ps))

/-- The text before the first `::` and the text after it. -/
def splitAtGap? : List Char → Option (List Char × List Char)
  | ':' :: ':' :: cs => some ([], cs)
  | c :: cs => (splitAtGap? cs).map fun (a, b) => (c :: a, b)
  | [] => none

/-- The groups on one side of a gap, where no group at all is possible. -/
def side? (quad : Bool) (cs : List Char) : Option (List Nat) :=
  if cs.isEmpty then some [] else groups? quad (splitOnChar ':' cs)

def ofGroups? (gs : List Nat) : Option Ipv6 :=
  ofNat? (gs.foldl (fun n g => n * 65536 + g) 0)

def parseChars? (cs : List Char) : Option Ipv6 :=
  match splitAtGap? cs with
  | none => do
    let gs ← groups? true (splitOnChar ':' cs)
    if gs.length = 8 then ofGroups? gs else none
  | some (head, tail) => do
    let hs ← side? false head
    let ts ← side? true tail
    if hs.length + ts.length ≤ 7 then
      ofGroups? (hs ++ List.replicate (8 - hs.length - ts.length) 0 ++ ts)
    else none

/-- Where the first longest run of zeros starts and how long it is. The arguments are the
position, the run that ends there and the longest run so far. -/
def zeroRun : (position start len bestStart bestLen : Nat) → List Nat → Nat × Nat
  | _, _, _, bestStart, bestLen, [] => (bestStart, bestLen)
  | i, start, len, bestStart, bestLen, g :: gs =>
    if g = 0 then
      let start := if len = 0 then i else start
      if bestLen < len + 1 then zeroRun (i + 1) start (len + 1) start (len + 1) gs
      else zeroRun (i + 1) start (len + 1) bestStart bestLen gs
    else zeroRun (i + 1) 0 0 bestStart bestLen gs

def groupsText (gs : List Nat) : String :=
  ":".intercalate (gs.map hexText)

def text (a : Ipv6) : String :=
  match a.unmapped? with
  | some quad => "::ffff:" ++ quad.text
  | none =>
    let (start, len) := zeroRun 0 0 0 0 0 a.groups
    if 1 < len then
      groupsText (a.groups.take start) ++ "::" ++ groupsText (a.groups.drop (start + len))
    else groupsText a.groups

end Ipv6

namespace Ip

/-- A text with the form of both families would be of the shorter one. -/
def parseChars? (cs : List Char) : Option Ip :=
  match Ipv4.parseChars? cs with
  | some a => some (v4 a)
  | none => (Ipv6.parseChars? cs).map v6

def parse? (s : String) : Option Ip :=
  parseChars? s.toList

def text : Ip → String
  | v4 a => a.text
  | v6 a => a.text

end Ip

/-- The address, a slash and the length, also where the length is the whole width. -/
def Network.text (n : Network) : String :=
  n.address.text ++ "/" ++ decimalText n.length

end Reputation
