import Reputation.Api.Form
import Reputation.Api.MediaType
import Reputation.Json.Decode
import Reputation.Json.Reader
import Reputation.Resolution.Engine
/-!
Requests, the places they go to, and what is read from them. Paths are matched as they were sent;
only the segments that hold a value are decoded.
-/
namespace Reputation.Api

inductive Method where
  | get
  | head
  | post
  | other
deriving DecidableEq

structure Request where
  method : Method
  path : List Char
  query : List Char
  contentType : Option String
  body : String
deriving DecidableEq

/-- All that follows the host in a target that begins with a scheme and a host. Neither of them
plays a part in what is answered. -/
def afterHost? (target : List Char) : Option (List Char) :=
  match target.dropWhile fun c => c ≠ ':' && c ≠ '/' && c ≠ '?' with
  | ':' :: '/' :: '/' :: rest => some (rest.dropWhile fun c => c ≠ '/' && c ≠ '?')
  | _ => none

/-- Splits a target into path and query. What follows a number sign is not sent, and a target
without a path goes to the root. -/
def Request.ofTarget (method : Method) (target : String) (contentType : Option String)
    (body : String) : Request :=
  let sent := target.toList.takeWhile (· ≠ '#')
  let place := (afterHost? sent).getD sent
  let (path, query) := (Text.splitAtFirst? '?' place).getD (place, [])
  ⟨method, if path.isEmpty then ['/'] else path, query, contentType, body⟩

inductive Route where
  | entity (segment : List Char)
  | statements
  | statement (segment : List Char)
  | refresh
deriving DecidableEq

/-- The place that a path leads to. Segments that hold a value are not empty. -/
def Route.ofPath? (path : List Char) : Option Route :=
  match (Text.splitOnChar '/' path).map String.ofList with
  | ["", "entity", e] => if e = "" then none else some (entity e.toList)
  | ["", "statements"] => some statements
  | ["", "statements", id] => if id = "" then none else some (statement id.toList)
  | ["", "index", "refresh"] => some refresh
  | _ => none

/-- The statement and opinion that a client asks the node to publish. -/
structure Submission where
  name : String
  first : String
  second : Option String
  certainty : Int32
  comment : Option String
deriving DecidableEq

namespace Submission

open Json

def fields : List Field :=
  [.of "name" asText, .of "entity_1" asText, .of "entity_2" (asOption asText),
    .of "certainty" asInt32, .of "comment" (asOption asText)]

def ofJson : Reading Submission := fun v => do
  let fs ← Fields.read fields v
  return ⟨← fs.required "name" asText, ← fs.required "entity_1" asText,
    ← fs.optional "entity_2" asText, ← fs.withDefault "certainty" asInt32 ({} : Draft).certainty,
    ← fs.optional "comment" asText⟩

/-- The greatest size of a body in bytes. -/
def maxBodySize : Nat := 0x200000

/-- A body has to be announced as JSON, not to be too large, to be JSON, and to have the right
fields; the status tells which of these it fails first. -/
def ofRequest (r : Request) : Except Nat Submission :=
  if !(r.contentType.bind MediaType.parse?).any (·.isJson) then .error 415
  else if maxBodySize < r.body.utf8ByteSize then .error 413
  else
    let (v, ended) := Json.read r.body
    match ofJson v with
    | .error .malformed => .error 400
    | .error .mismatch => .error 422
    | .ok s => if ended then .ok s else .error 400

end Submission
end Reputation.Api
