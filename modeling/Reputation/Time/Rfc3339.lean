import Reputation.Text.Blank
import Reputation.Text.Numeral
import Reputation.Time.Calendar
import Reputation.Time.Instant
/-!
Instants as RFC 3339 text. Printing gives one form in universal time with the shortest exact
fraction of 0, 3, 6 or 9 digits. Reading is relaxed: parts may be one digit wide and stand apart,
any sign allows a year of any length, and the offset may lack its colon or be spelled out.
-/
namespace Reputation.Instant

open Text Time

/-- Years of more than four digits carry a sign. -/
def yearText (year : Int) : String :=
  if 0 ≤ year ∧ year ≤ 9999 then padded 4 year.natAbs
  else (if year < 0 then "-" else "+") ++ padded 4 year.natAbs

def fractionText (nanos : Nat) : String :=
  if nanos = 0 then ""
  else if nanos % 1000000 = 0 then "." ++ padded 3 (nanos / 1000000)
  else if nanos % 1000 = 0 then "." ++ padded 6 (nanos / 1000)
  else "." ++ padded 9 nanos

/-- A leap second is printed as second 60. -/
def toText (t : Instant) : String :=
  let date := Date.ofDays (t.seconds / 86400)
  let clock := (t.seconds % 86400).toNat
  let second := clock % 60 + t.nanos / 1000000000
  yearText date.year ++ "-" ++ padded 2 date.month ++ "-" ++ padded 2 date.day ++ "T" ++
    padded 2 (clock / 3600) ++ ":" ++ padded 2 (clock / 60 % 60) ++ ":" ++ padded 2 second ++
    fractionText (t.nanos % 1000000000) ++ "Z"

/-- The leading ASCII digits of `cs`, at most `max` of them, and the rest. -/
def takeDigits : (max : Nat) → (cs : List Char) → List Char × List Char
  | 0, cs => ([], cs)
  | _ + 1, [] => ([], [])
  | max + 1, c :: cs =>
    if (digitValue? 10 c).isSome then
      let (ds, rest) := takeDigits max cs
      (c :: ds, rest)
    else ([], c :: cs)

/-- A number of one to `max` digits after white space. -/
def number? (max : Nat) (cs : List Char) : Option (Nat × List Char) :=
  let (ds, rest) := takeDigits max (trimStart cs)
  (digits? 10 ds).map (·, rest)

def year? (cs : List Char) : Option (Int × List Char) :=
  let long (cs : List Char) := do
    let (ds, rest) := takeDigits cs.length cs
    some (← digits? 10 ds, rest)
  match trimStart cs with
  | '-' :: cs => (long cs).map fun (n, rest) => (-(n : Int), rest)
  | '+' :: cs => (long cs).map fun (n, rest) => ((n : Int), rest)
  | cs => (number? 4 cs).map fun (n, rest) => ((n : Int), rest)

/-- The character `c`, which white space may precede. -/
def mark? (c : Char) (cs : List Char) : Option (List Char) :=
  match trimStart cs with
  | d :: rest => if d = c then some rest else none
  | [] => none

def date? (cs : List Char) : Option (Date × List Char) := do
  let (year, cs) ← year? cs
  let (month, cs) ← number? 2 (← mark? '-' cs)
  let (day, cs) ← number? 2 (← mark? '-' cs)
  let date : Date := ⟨year, month, day⟩
  if date.IsValid then some (date, cs) else none

/-- A fraction of at least one digit, of which nine count. -/
def fraction? : List Char → Option (Nat × List Char)
  | '.' :: cs => do
    let (ds, rest) := takeDigits 9 cs
    let n ← digits? 10 ds
    some (n * powerOfTen (9 - ds.length), (takeDigits rest.length rest).2)
  | cs => some (0, cs)

/-- Seconds of the day and nanoseconds. Any minute may have a second 60. -/
def clock? (cs : List Char) : Option (Nat × Nat × List Char) := do
  let (hour, cs) ← number? 2 cs
  let (minute, cs) ← number? 2 (← mark? ':' cs)
  let (second, cs) ← number? 2 (← mark? ':' cs)
  let (nanos, cs) ← fraction? cs
  if hour ≤ 23 ∧ minute ≤ 59 ∧ second ≤ 60 then
    if second = 60 then some (hour * 3600 + minute * 60 + 59, nanos + 1000000000, cs)
    else some (hour * 3600 + minute * 60 + second, nanos, cs)
  else none

def twoDigits? : List Char → Option (Nat × List Char)
  | a :: b :: cs => do some ((← digitValue? 10 a) * 10 + (← digitValue? 10 b), cs)
  | _ => none

/-- Seconds east of universal time. The sign may be a minus sign instead of a hyphen, and colons
and white space may stand between hours and minutes. -/
def offset? (cs : List Char) : Option (Int × List Char) :=
  let size (cs : List Char) : Option (Int × List Char) := do
    let (hours, cs) ← twoDigits? cs
    let (minutes, cs) ← twoDigits? (cs.dropWhile fun c => c = ':' || isBlank c)
    if minutes ≤ 59 then some (((hours * 3600 + minutes * 60 : Nat) : Int), cs) else none
  match cs with
  | 'Z' :: cs | 'z' :: cs => some (0, cs)
  | '+' :: cs => size cs
  | '-' :: cs | '−' :: cs => (size cs).map fun (n, cs) => (-n, cs)
  | u :: t :: c :: cs =>
    if u.toUpper = 'U' ∧ t.toUpper = 'T' ∧ c.toUpper = 'C' then some (0, cs) else none
  | _ => none

/-- Offsets of a day or more are refused, as is an instant outside the range of years. -/
def parseChars? (cs : List Char) : Option Instant := do
  let (date, cs) ← date? cs
  let cs ← match cs with
    | 'T' :: cs | 't' :: cs | ' ' :: cs => some cs
    | _ => none
  let (second, nanos, cs) ← clock? cs
  let (offset, cs) ← offset? (trimStart cs)
  if trimStart cs = [] ∧ offset.natAbs < 86400 ∧ -262143 ≤ date.year ∧ date.year ≤ 262142 then
    ofParts? (date.toDays * 86400 + second - offset) nanos
  else none

def parse? (s : String) : Option Instant :=
  parseChars? s.toList

end Reputation.Instant
