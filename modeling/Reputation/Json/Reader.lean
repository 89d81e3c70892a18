import Reputation.Json.Basic
import Reputation.Text.Numeral
/-!
Reading JSON text. Reading never fails: a text that stops being JSON yields the values up to that
point and then `broken`, so that what is wrong first in the text is met first in the value.
-/
namespace Reputation.Json

open Text

def isSpace (c : Char) : Bool :=
  c = ' ' || c = '\n' || c = '\t' || c = '\r'

def skipSpace (cs : List Char) : List Char :=
  cs.dropWhile isSpace

inductive Literal where
  | chars (cs : List Char)
  | unreadable
  | broken
deriving DecidableEq

def Literal.push (c : Char) : Literal → Literal
  | .chars cs => .chars (c :: cs)
  | other => other

def unit? : List Char → Option (Nat × List Char)
  | a :: b :: c :: d :: rest => (digits? 16 [a, b, c, d]).map (·, rest)
  | _ => none

def shortEscape? (c : Char) : Option Char :=
  if c = '"' || c = '\\' || c = '/' then some c
  else if c = 'b' then some '\x08'
  else if c = 'f' then some '\x0c'
  else if c = 'n' then some '\n'
  else if c = 'r' then some '\r'
  else if c = 't' then some '\t'
  else none

/-- What comes of an escape that stands for the code point `u` alone, before the rest. -/
def afterEscape (u : Nat) : Literal × List Char → Literal × List Char
  | (l, rest) =>
    if 0xd800 ≤ u ∧ u < 0xe000 then
      (match l with | .broken => .broken | _ => .unreadable, rest)
    else (l.push (Char.ofNat u), rest)

/-- The rest of a string literal after its opening quote. Two escapes may spell one character as
a pair of surrogates; any other surrogate denotes nothing. -/
def readText : (fuel : Nat) → List Char → Literal × List Char
  | 0, _ => (.broken, [])
  | _ + 1, [] => (.broken, [])
  | fuel + 1, c :: cs =>
    if c = '"' then (.chars [], cs)
    else if c.toNat < 0x20 then (.broken, [])
    else if c ≠ '\\' then
      let (l, rest) := readText fuel cs
      (l.push c, rest)
    else match cs with
      | 'u' :: cs =>
        match unit? cs with
        | none => (.broken, [])
        | some (u, cs) =>
          let low : Option (Nat × List Char) := match cs with
            | '\\' :: 'u' :: cs => unit? cs
            | _ => none
          match low with
          | some (v, after) =>
            if 0xd800 ≤ u ∧ u < 0xdc00 ∧ 0xdc00 ≤ v ∧ v < 0xe000 then
              let (l, rest) := readText fuel after
              (l.push (Char.ofNat (0x10000 + (u - 0xd800) * 0x400 + (v - 0xdc00))), rest)
            else afterEscape u (readText fuel cs)
          | none => afterEscape u (readText fuel cs)
      | e :: cs =>
        match shortEscape? e with
        | none => (.broken, [])
        | some c =>
          let (l, rest) := readText fuel cs
          (l.push c, rest)
      | [] => (.broken, [])

def takeDigits (cs : List Char) : List Char × List Char :=
  (cs.takeWhile Char.isDigit, cs.dropWhile Char.isDigit)

def digitsValue (ds : List Char) : Nat :=
  ds.foldl (fun n c => n * 10 + (c.toNat - 48)) 0

/-- The float nearest to `mantissa * 10 ^ exponent`. Exponents that settle the outcome are not
computed with. -/
def nearestFloat (mantissa : Nat) (exponent : Int) : Float :=
  if mantissa = 0 then 0.0
  else
    let magnitude := (Nat.toDigits 10 mantissa).length + exponent
    if 400 < magnitude then 1.0 / 0.0
    else if magnitude < -400 then 0.0
    else if exponent < 0 then Float.ofScientific mantissa true exponent.natAbs
    else Float.ofScientific mantissa false exponent.natAbs

/-- Whole literals within 64 bits are integers, with the exception of minus zero. -/
def numberValue (negative whole : Bool) (mantissa : Nat) (exponent : Int) : Json :=
  if whole && !negative && mantissa < 0x10000000000000000 then .int mantissa
  else if whole && negative && mantissa ≠ 0 && mantissa ≤ 0x8000000000000000 then
    .int (-(mantissa : Int))
  else
    let x := nearestFloat mantissa exponent
    if x.isFinite then .float (if negative then -x else x) else .unreadable

/-- An exponent after its letter, as a signed number. -/
def readExponent (cs : List Char) : Option (Int × List Char) :=
  let (negative, cs) := match cs with
    | '-' :: cs => (true, cs)
    | '+' :: cs => (false, cs)
    | cs => (false, cs)
  let (ds, rest) := takeDigits cs
  if ds.isEmpty then none
  else
    let n : Int := digitsValue ds
    some (if negative then -n else n, rest)

def readNumber (negative : Bool) (cs : List Char) : Json × List Char :=
  let (ds, cs) := takeDigits cs
  let bad : Json × List Char := (.broken, [])
  if ds.isEmpty || (ds.length > 1 && ds.head? = some '0') then bad
  else
    let (point, fs, cs) := match cs with
      | '.' :: cs => let (fs, cs) := takeDigits cs; (true, fs, cs)
      | cs => (false, [], cs)
    if point && fs.isEmpty then bad
    else
      let mantissa := digitsValue (ds ++ fs)
      match cs with
      | 'e' :: cs | 'E' :: cs =>
        match readExponent cs with
        | none => bad
        | some (e, cs) => (numberValue negative false mantissa (e - fs.length), cs)
      | cs => (numberValue negative (!point) mantissa (-(fs.length : Int)), cs)

/-- Puts a field before others. A name that denotes no text hides all fields from there on, but it
does not hide that they are broken. -/
def consField (name : Literal) (v : Json) (fields : List (String × Json)) : List (String × Json) :=
  match name with
  | .chars name => (String.ofList name, v) :: fields
  | _ => [("", if v.isWellFormed && fieldsWellFormed fields then .misnamed else .broken)]

/-- The value `v` if the word `word` comes next. -/
def readWord (word : List Char) (v : Json) (cs : List Char) : Json × List Char :=
  if word.isPrefixOf cs then (v, cs.drop word.length) else (.broken, [])

mutual

def readValue : (fuel : Nat) → List Char → Json × List Char
  | 0, _ => (.broken, [])
  | fuel + 1, cs =>
    match skipSpace cs with
    | 'n' :: cs => readWord ['u', 'l', 'l'] .null cs
    | 't' :: cs => readWord ['r', 'u', 'e'] (.bool true) cs
    | 'f' :: cs => readWord ['a', 'l', 's', 'e'] (.bool false) cs
    | '"' :: cs =>
      match readText (cs.length + 1) cs with
      | (.chars s, rest) => (.text (String.ofList s), rest)
      | (.unreadable, rest) => (.unreadable, rest)
      | (.broken, _) => (.broken, [])
    | '-' :: cs => readNumber true cs
    | '[' :: cs =>
      match skipSpace cs with
      | ']' :: rest => (.array [], rest)
      | cs => let (items, rest) := readItems fuel cs; (.array items, rest)
    | '\x7b' :: cs =>
      match skipSpace cs with
      | '\x7d' :: rest => (.object [], rest)
      | cs => let (fields, rest) := readFields fuel cs; (.object fields, rest)
    | cs => readNumber false cs

def readItems : (fuel : Nat) → List Char → List Json × List Char
  | 0, _ => ([.broken], [])
  | fuel + 1, cs =>
    let (v, rest) := readValue fuel cs
    match skipSpace rest with
    | ',' :: cs => let (vs, rest) := readItems fuel cs; (v :: vs, rest)
    | ']' :: cs => ([v], cs)
    | _ => ([v, .broken], [])

def readFields : (fuel : Nat) → List Char → List (String × Json) × List Char
  | 0, _ => ([("", .broken)], [])
  | fuel + 1, cs =>
    match skipSpace cs with
    | '"' :: cs =>
      match readText (cs.length + 1) cs with
      | (.broken, _) => ([("", .broken)], [])
      | (name, cs) =>
        match skipSpace cs with
        | ':' :: cs =>
          let (v, rest) := readValue fuel cs
          match skipSpace rest with
          | ',' :: cs => let (fs, rest) := readFields fuel cs; (consField name v fs, rest)
          | '\x7d' :: cs => (consField name v [], cs)
          | _ => (consField name v [("", .broken)], [])
        | _ => (consField name .broken [], [])
    | _ => ([("", .broken)], [])

end

/-- The value of a text, and whether nothing but white space follows it. -/
def read (s : String) : Json × Bool :=
  let cs := s.toList
  let (v, rest) := readValue (2 * cs.length + 2) cs
  (v, (skipSpace rest).isEmpty)

end Reputation.Json
