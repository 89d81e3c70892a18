import Reputation.Json.Decode
import Reputation.Key
import Reputation.Trust
/-!
The configuration of a node. Every field has a default; trust is given by the numbers of signers as
texts, and the node's own secret key as base64.
-/
namespace Reputation

open Json

structure NodeConfig where
  host : String := "127.0.0.1"
  port : UInt16 := 8450
  storePath : String := "~/.local/share/repnet/repnet.sqlite"
  /-- The deadline of each call to the store, in milliseconds. -/
  storeTimeout : UInt64 := 2000
  /-- The weight of signers that `trust` does not mention. -/
  defaultTrust : Float := 0.0
  trust : Std.TreeMap String Float := ∅
  ownKey : Option String := none

inductive ConfigFault where
  | trustKey (key : String)
  | ownKeyEncoding
  | ownKeyLength (bytes : Nat)
deriving DecidableEq

def ConfigFault.message : ConfigFault → String
  | trustKey key => "trust key " ++ Text.quoted key ++ " is not a signer id"
  | ownKeyEncoding => "own_key is not valid base64"
  | ownKeyLength n => "own_key must be 32 bytes, got " ++ Text.decimalText n

namespace NodeConfig

/-- Later weights for the same text replace earlier ones. -/
def trustOfJson : Reading (Std.TreeMap String Float) := fun v =>
  (asEntries asFloat v).map fun entries => entries.foldl (fun m (key, w) => m.insert key w) ∅

def fields : List Field :=
  [.of "host" asText, .of "port" asUInt16, .of "store_path" asText,
    .of "store_timeout_ms" asUInt64, .of "default_trust" asFloat, .of "trust" trustOfJson,
    .of "own_key" (asOption asText)]

def ofJson : Reading NodeConfig := fun v => do
  let fs ← Fields.read fields v
  let base : NodeConfig := {}
  return {
    host := ← fs.withDefault "host" asText base.host
    port := ← fs.withDefault "port" asUInt16 base.port
    storePath := ← fs.withDefault "store_path" asText base.storePath
    storeTimeout := ← fs.withDefault "store_timeout_ms" asUInt64 base.storeTimeout
    defaultTrust := ← fs.withDefault "default_trust" asFloat base.defaultTrust
    trust := ← fs.withDefault "trust" trustOfJson base.trust
    ownKey := ← fs.withDefault "own_key" (asOption asText) base.ownKey }

/-- Enters weights into a table. White space around the number of a signer does not matter. -/
def enterTrust (table : TrustTable) : List (String × Float) → Except ConfigFault TrustTable
  | [] => .ok table
  | (key, weight) :: rest =>
    match Text.int64? (Text.trimChars key.toList) with
    | none => .error (.trustKey key)
    | some id => enterTrust (table.set ⟨id⟩ weight) rest

/-- Texts that denote the same signer are entered in the order of the texts, so the greatest one
wins. -/
def trustTable (c : NodeConfig) : Except ConfigFault TrustTable :=
  enterTrust { default := c.defaultTrust } c.trust.toList

def signingKey (c : NodeConfig) : Except ConfigFault (Option SecretKey) :=
  match c.ownKey with
  | none => .ok none
  | some encoded => match Text.Base64.decode? (Text.trimChars encoded.toList) with
    | none => .error .ownKeyEncoding
    | some bytes => match SecretKey.ofSeed? bytes with
      | none => .error (.ownKeyLength bytes.length)
      | some key => .ok (some key)

end NodeConfig
end Reputation
