import Reputation.Address.Bound
import Reputation.Id
import Reputation.Text.Quoted
/-!
What can go wrong, as causes, and the message of each. A collaborator may fail in ways of its own;
its failure is a chain in which an error of this library may be the innermost cause.
-/
namespace Reputation

inductive EntityFault where
  | label (text : String)
  | keyLength (bytes : Nat)
  | keyNotOnCurve
deriving DecidableEq

def EntityFault.text : EntityFault → String
  | label s => s
  | keyLength n => "public key must be 32 bytes, got " ++ Text.decimalText n
  | keyNotOnCurve => "invalid public key: signature error: Cannot decompress Edwards point"

inductive NumeralFault where
  | invalidDigit
  | tooLarge
deriving DecidableEq

def NumeralFault.message : NumeralFault → String
  | invalidDigit => "invalid digit found in string"
  | tooLarge => "number too large to fit in target type"

inductive RecordFault where
  /-- The text has no length that a bound can have, or is no numeral. -/
  | malformedBound (text : String) (numeral : Option NumeralFault)
  | negativeBound (n : Int)
  | boundsOutOfOrder (min max : Bound)
  | halfRange
  | emptyName
  | emptyFirstEntity
  | emptySecondEntity
  | inStatement (id : StatementId) (fault : RecordFault)
  | timestampOutOfRange (seconds : Int)
  | boundColumnType (kind : String)
  | opinionSerial (id : OpinionId) (value : Int)
  | opinionCertainty (id : OpinionId) (value : Int)
  /-- A fault that another program found and described. -/
  | reported (why : String)
deriving DecidableEq

def RecordFault.message : RecordFault → String
  | malformedBound s none => "malformed bound " ++ Text.quoted s
  | malformedBound s (some n) => "malformed bound " ++ Text.quoted s ++ ": " ++ n.message
  | negativeBound n => "negative bound " ++ Text.integerText n
  | boundsOutOfOrder min max => "range bounds out of order: " ++ min.text ++ " > " ++ max.text
  | halfRange => "only one of cidr_min/cidr_max is present"
  | emptyName => "empty name"
  | emptyFirstEntity => "empty entity_1"
  | emptySecondEntity => "empty entity_2"
  | inStatement id fault => "statement " ++ id.text ++ ": " ++ fault.message
  | timestampOutOfRange n => "timestamp out of range: " ++ Text.integerText n
  | boundColumnType kind => "unsupported bound column type: " ++ kind
  | opinionSerial id n => "opinion " ++ id.text ++ ": serial out of range: " ++ Text.integerText n
  | opinionCertainty id n =>
    "opinion " ++ id.text ++ ": certainty out of range: " ++ Text.integerText n
  | reported why => why

mutual

inductive Error where
  | notFound (what : String)
  | storeUnavailable (cause : Failure)
  | invalidRecord (fault : RecordFault)
  | signatureInvalid (id : OpinionId)
  | keyUnavailable (id : SignerId)
  | invalidEntity (fault : EntityFault)
  | cancelled

inductive Failure where
  /-- The failure is itself an error of this library. -/
  | known (error : Error)
  | foreign (message : String)
  | wrapped (message : String) (cause : Failure)

end

mutual

def Error.message : Error → String
  | .notFound what => "not found: " ++ what
  | .storeUnavailable cause => "record store unavailable: " ++ cause.message
  | .invalidRecord fault => "invalid record: " ++ fault.message
  | .signatureInvalid id => "signature invalid for opinion " ++ id.text
  | .keyUnavailable id => "no public key known for signer " ++ id.text
  | .invalidEntity fault => "invalid entity: " ++ Text.quoted fault.text
  | .cancelled => "resolution cancelled"

/-- The text of the outermost failure; a wrapper's text says as much of its cause as it likes. -/
def Failure.message : Failure → String
  | .known error => error.message
  | .foreign message => message
  | .wrapped message _ => message

end

mutual

/-- The first invalid record in the chain of causes. -/
def Failure.recordFault? : Failure → Option RecordFault
  | .known error => error.recordFault?
  | .foreign _ => none
  | .wrapped _ cause => cause.recordFault?

def Error.recordFault? : Error → Option RecordFault
  | .invalidRecord fault => some fault
  | .storeUnavailable cause => cause.recordFault?
  | _ => none

end

def Failure.elapsed : Failure := .foreign "deadline has elapsed"

/-- A failure counts against the store, unless a record that cannot be decoded caused it: trying
again does not mend stored data. -/
def Failure.classify (f : Failure) : Error :=
  match f.recordFault? with
  | some fault => .invalidRecord fault
  | none => .storeUnavailable f

end Reputation
