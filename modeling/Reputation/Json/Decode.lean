import Reputation.Json.Basic
/-!
Typed readings of JSON values. A reading fails at the first fault in the order of the text: either
the text is not JSON there, or it is JSON of the wrong kind. Structures are objects, whose unknown
fields are passed over, or arrays of their fields in order. The names of a structure's own fields
have to be readable; what is passed over only has to be well-formed.
-/
namespace Reputation.Json

inductive Fault where
  /-- The text is not JSON at this place. -/
  | malformed
  | mismatch
deriving DecidableEq

abbrev Reading (α : Type) := Json → Except Fault α

/-- The fault of a value that is not of the wanted kind. -/
def faultOf : Json → Fault
  | broken => .malformed
  | unreadable => .malformed
  | misnamed => .malformed
  | _ => .mismatch

def asText : Reading String
  | .text s => .ok s
  | v => .error (faultOf v)

def asBool : Reading Bool
  | .bool b => .ok b
  | v => .error (faultOf v)

def asInt (min max : Int) : Reading Int
  | .int n => if min ≤ n ∧ n ≤ max then .ok n else .error .mismatch
  | v => .error (faultOf v)

def asNat (max : Nat) : Reading Nat
  | .int n => if 0 ≤ n ∧ n ≤ max then .ok n.toNat else .error .mismatch
  | v => .error (faultOf v)

def asInt64 (v : Json) : Except Fault Int64 :=
  (asInt Int64.minValue.toInt Int64.maxValue.toInt v).map Int64.ofInt

def asInt32 (v : Json) : Except Fault Int32 :=
  (asInt Int32.minValue.toInt Int32.maxValue.toInt v).map Int32.ofInt

def asUInt16 (v : Json) : Except Fault UInt16 :=
  (asNat 0xffff v).map UInt16.ofNat

def asUInt32 (v : Json) : Except Fault UInt32 :=
  (asNat 0xffffffff v).map UInt32.ofNat

def asUInt64 (v : Json) : Except Fault UInt64 :=
  (asNat 0xffffffffffffffff v).map UInt64.ofNat

/-- Integers count as floats. -/
def asFloat : Reading Float
  | .float x => .ok x
  | .int n => .ok (Float.ofInt n)
  | v => .error (faultOf v)

/-- A text that `parse` accepts. -/
def asParsed {α : Type} (parse : String → Option α) : Reading α := fun v => do
  match parse (← asText v) with
  | some a => .ok a
  | none => .error .mismatch

def asOption {α : Type} (item : Reading α) : Reading (Option α)
  | .null => .ok none
  | v => (item v).map some

def asItems {α : Type} (item : Reading α) : List Json → Except Fault (List α)
  | [] => .ok []
  | v :: vs => do .ok ((← item v) :: (← asItems item vs))

def asList {α : Type} (item : Reading α) : Reading (List α)
  | .array items => asItems item items
  | v => .error (faultOf v)

/-- The named values of an object; a name that repeats keeps all its values. -/
def asEntries {α : Type} (item : Reading α) : Reading (List (String × α))
  | .object fields => fields.mapM fun (name, v) => do .ok (name, ← item v)
  | v => .error (faultOf v)

structure Field where
  name : String
  check : Reading Unit

def Field.of {α : Type} (name : String) (reading : Reading α) : Field :=
  ⟨name, fun v => (reading v).map fun _ => ()⟩

/-- The fields found in a value, and whether it listed them by position. -/
structure Fields where
  byPosition : Bool
  found : List (String × Json)

namespace Fields

/-- Walks over named fields; a field that repeats is a fault before its second value is read. -/
def ofNamed (spec : List Field) : (found : List (String × Json)) → List (String × Json) →
    Except Fault (List (String × Json))
  | found, [] => .ok found
  | _, (_, .misnamed) :: _ => .error .malformed
  | found, (name, v) :: rest =>
    match spec.find? (·.name = name) with
    | none => if v.isWellFormed then ofNamed spec found rest else .error .malformed
    | some field =>
      if (found.lookup name).isSome then .error .mismatch
      else do
        field.check v
        ofNamed spec (found ++ [(name, v)]) rest

/-- Fields in order; more items than fields are not the structure's text. -/
def ofItems : List Field → List Json → Except Fault (List (String × Json))
  | _, [] => .ok []
  | [], _ :: _ => .error .malformed
  | field :: spec, v :: vs => do
    field.check v
    .ok ((field.name, v) :: (← ofItems spec vs))

def readObject (spec : List Field) : Reading Fields
  | .object fields => (ofNamed spec [] fields).map (⟨false, ·⟩)
  | v => .error (faultOf v)

def read (spec : List Field) : Reading Fields
  | .array items => (ofItems spec items).map (⟨true, ·⟩)
  | v => readObject spec v

def required {α : Type} (fs : Fields) (name : String) (reading : Reading α) : Except Fault α :=
  match fs.found.lookup name with
  | some v => reading v
  | none => .error .mismatch

/-- A field that an object may leave out. An array has to list it all the same. -/
def optional {α : Type} (fs : Fields) (name : String) (reading : Reading α) :
    Except Fault (Option α) :=
  match fs.found.lookup name with
  | some v => asOption reading v
  | none => if fs.byPosition then .error .mismatch else .ok none

/-- A field with a default for when it is left out. -/
def withDefault {α : Type} (fs : Fields) (name : String) (reading : Reading α) (default : α) :
    Except Fault α :=
  match fs.found.lookup name with
  | some v => reading v
  | none => .ok default

end Fields
end Reputation.Json
