import Reputation.Text.Blank
/-!
Media types of request bodies: a type, a subtype with an optional suffix, and parameters, which are
only checked for their form.
-/
namespace Reputation.Api

def isTokenChar (c : Char) : Bool :=
  c.isAlphanum || "!#$%&'*+-.^_|~".toList.contains c || c.toNat = 0x60

structure MediaType where
  type : String
  subtype : String
  suffix : Option String
deriving DecidableEq

inductive ParameterState where
  | start
  | name
  | valueStart
  | value
  | quoteStart
  | quoted
  | afterQuote
deriving DecidableEq

namespace ParameterState

/-- One more character. A name has at least one character, and so has a quoted value. -/
def step : ParameterState → Char → Option ParameterState
  | start, c => if c = ' ' then some start else if isTokenChar c then some name else none
  | name, c => if c = '=' then some valueStart else if isTokenChar c then some name else none
  | valueStart, c => if c = '"' then some quoteStart else if isTokenChar c then some value else none
  | value, c => if c = ';' then some start else if isTokenChar c then some value else none
  | quoteStart, c => if c.toNat < 0x20 then none else some quoted
  | quoted, c => if c = '"' then some afterQuote else if c.toNat < 0x20 then none else some quoted
  | afterQuote, c => if c = ';' then some start else if c = ' ' then some afterQuote else none

def isFinal : ParameterState → Bool
  | start => true
  | valueStart => true
  | value => true
  | afterQuote => true
  | _ => false

end ParameterState

def areParameters (cs : List Char) : Bool :=
  (cs.foldlM ParameterState.step .start).any (·.isFinal)

def lowerText (cs : List Char) : String :=
  String.ofList (cs.map Char.toLower)

/-- Splits at the last `+` that is not the first character. -/
def splitSuffix (cs : List Char) : List Char × Option (List Char) :=
  match Text.splitAtFirst? '+' cs.reverse with
  | some (after, before) =>
    if before.isEmpty then (cs, none) else (before.reverse, some after.reverse)
  | none => (cs, none)

namespace MediaType

def parse? (s : String) : Option MediaType := do
  let cs := s.toList
  guard (cs.all fun c => c = '\t' || (0x20 ≤ c.toNat && c.toNat < 0x7f))
  let (type, rest) ← Text.splitAtFirst? '/' cs
  guard (!type.isEmpty && type.all isTokenChar)
  let (subtype, parameters) := (Text.splitAtFirst? ';' rest).getD (rest, [])
  guard (subtype.all isTokenChar && areParameters parameters)
  let (base, suffix) := splitSuffix subtype
  return ⟨lowerText type, lowerText base, suffix.map lowerText⟩

def isJson (m : MediaType) : Bool :=
  m.type = "application" && (m.subtype = "json" || m.suffix = some "json")

end MediaType
end Reputation.Api
