import Reputation.Error
import Reputation.Json.Basic
/-!
Answers to requests: a status with a JSON body, or no body where a request is turned down before any
handler looks at it. Errors say what they are about in their body.
-/
namespace Reputation.Api

structure Response where
  status : Nat
  body : Option Json

def Response.refusal (status : Nat) : Response := ⟨status, none⟩

inductive ApiError where
  | notFound (text : String)
  | badRequest (text : String)
  | forbidden (text : String)
  | unavailable (text : String)
  | internal (text : String)
deriving DecidableEq

namespace ApiError

/-- A query for what cannot be is the client's fault, unusable data are the node's own, and
anything else may work at another time. -/
def ofError (e : Error) : ApiError :=
  match e with
  | .invalidEntity _ => badRequest e.message
  | .notFound _ => notFound e.message
  | .storeUnavailable _ => unavailable e.message
  | .cancelled => unavailable e.message
  | .invalidRecord _ => internal e.message
  | .signatureInvalid _ => internal e.message
  | .keyUnavailable _ => internal e.message

def text : ApiError → String
  | notFound t => t
  | badRequest t => t
  | forbidden t => t
  | unavailable t => t
  | internal t => t

def status : ApiError → Nat
  | notFound _ => 404
  | badRequest _ => 400
  | forbidden _ => 403
  | unavailable _ => 503
  | internal _ => 500

def message : ApiError → String
  | notFound t => "not found: " ++ t
  | badRequest t => "bad request: " ++ t
  | forbidden t => "forbidden: " ++ t
  | unavailable t => "store unavailable: " ++ t
  | internal t => "internal error: " ++ t

def response (e : ApiError) : Response :=
  ⟨e.status, some (.object [("error", .text e.text)])⟩

end ApiError
end Reputation.Api
