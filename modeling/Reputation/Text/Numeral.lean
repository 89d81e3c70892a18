/-!
Reading whole numbers in a given base. A numeral is an optional sign and at least one ASCII
digit; a numeral whose value lies outside the wanted range is no numeral of that range.
-/
namespace Reputation.Text

/-- The value of an ASCII letter or digit in bases up to 36. -/
def digitValue? (base : Nat) (c : Char) : Option Nat :=
  let n := c.toNat
  let v :=
    if 0x30 ≤ n ∧ n ≤ 0x39 then some (n - 0x30)
    else if 0x61 ≤ n ∧ n ≤ 0x7a then some (n - 0x61 + 10)
    else if 0x41 ≤ n ∧ n ≤ 0x5a then some (n - 0x41 + 10)
    else none
  v.filter (· < base)

/-- Reads all of `cs` as digits, going on from the value `acc`. -/
def foldDigits? (base acc : Nat) : List Char → Option Nat
  | [] => some acc
  | c :: cs => (digitValue? base c).bind fun d => foldDigits? base (acc * base + d) cs

def digits? (base : Nat) : List Char → Option Nat
  | [] => none
  | cs => foldDigits? base 0 cs

/-- Digits after at most one `+`. -/
def natural? (base : Nat) : List Char → Option Nat
  | '+' :: cs => digits? base cs
  | cs => digits? base cs

/-- Digits after at most one sign. -/
def integer? (base : Nat) : List Char → Option Int
  | '-' :: cs => (digits? base cs).map fun n => -(n : Int)
  | cs => (natural? base cs).map Int.ofNat

/-- A decimal numeral from 0 to `max`. -/
def naturalUpTo? (max : Nat) (cs : List Char) : Option Nat :=
  (natural? 10 cs).filter (· ≤ max)

/-- A decimal numeral that fits 64 signed bits. -/
def int64? (cs : List Char) : Option Int64 :=
  (integer? 10 cs).bind fun n =>
    if Int64.minValue.toInt ≤ n ∧ n ≤ Int64.maxValue.toInt then some (Int64.ofInt n) else none

def powerOfTen : Nat → Nat
  | 0 => 1
  | n + 1 => 10 * powerOfTen n

/-- The lower-case digit of value `d`, for bases up to 16. -/
def digitChar (d : Nat) : Char :=
  if d < 10 then Char.ofNat (0x30 + d) else Char.ofNat (0x61 + (d - 10))

/-- The last `width` digits of `n`, with leading zeros. -/
def fixedDigits (base : Nat) : (width n : Nat) → List Char
  | 0, _ => []
  | w + 1, n => fixedDigits base w (n / base) ++ [digitChar (n % base)]

/-- The shortest numeral of `n`; `fuel` bounds the number of digits. -/
def shortDigits (base : Nat) : (fuel n : Nat) → List Char
  | 0, n => [digitChar (n % base)]
  | fuel + 1, n =>
    if n < base then [digitChar n]
    else shortDigits base fuel (n / base) ++ [digitChar (n % base)]

def hexText (n : Nat) : String := String.ofList (shortDigits 16 n.log2 n)

def decimalText (n : Nat) : String := String.ofList (shortDigits 10 n.log2 n)

def integerText (n : Int) : String :=
  if n < 0 then "-" ++ decimalText n.natAbs else decimalText n.natAbs

/-- A number with at least `width` digits, as clocks and calendars write it. -/
def padded (width n : Nat) : String :=
  let ds := shortDigits 10 n.log2 n
  String.ofList (List.replicate (width - ds.length) '0' ++ ds)

end Reputation.Text
