import Reputation.Address.BoundText
import Reputation.Json.Decode
import Reputation.Statement
import Reputation.Time.Rfc3339
import Reputation.Verdict
/-!
The JSON forms of statements, their records and hints, and of verdicts. Fields that may be missing
are always written, as null if there is nothing to say.
-/
namespace Reputation

open Json

def Bound.toJson (b : Bound) : Json := .text b.text

def Bound.ofJson : Reading Bound := asParsed Bound.parse?

namespace StatementRecord

def toJson (r : StatementRecord) : Json :=
  .object [("id", ofInt64 r.id.val), ("name", .text r.name), ("entity_1", .text r.firstEntity),
    ("entity_2", ofOption .text r.secondEntity), ("cidr_min", ofOption Bound.toJson r.lower),
    ("cidr_max", ofOption Bound.toJson r.upper)]

def fields : List Field :=
  [.of "id" asInt64, .of "name" asText, .of "entity_1" asText, .of "entity_2" (asOption asText),
    .of "cidr_min" (asOption Bound.ofJson), .of "cidr_max" (asOption Bound.ofJson)]

def ofJson : Reading StatementRecord := fun v => do
  let fs ← Fields.read fields v
  return ⟨⟨← fs.required "id" asInt64⟩, ← fs.required "name" asText,
    ← fs.required "entity_1" asText, ← fs.optional "entity_2" asText,
    ← fs.optional "cidr_min" Bound.ofJson, ← fs.optional "cidr_max" Bound.ofJson⟩

end StatementRecord

namespace AddressRange

def toJson (r : AddressRange) : Json :=
  .object [("min", r.min.toJson), ("max", r.max.toJson)]

/-- The bounds may come in any order. -/
def ofJson : Reading AddressRange := fun v => do
  let fs ← Fields.read [.of "min" Bound.ofJson, .of "max" Bound.ofJson] v
  return ⟨← fs.required "min" Bound.ofJson, ← fs.required "max" Bound.ofJson⟩

end AddressRange

namespace Statement

def toJson (s : Statement) : Json :=
  .object [("id", ofInt64 s.id.val), ("name", .text s.name), ("entity_1", .text s.firstEntity),
    ("entity_2", ofOption .text s.secondEntity),
    ("range", ofOption AddressRange.toJson s.range)]

def fields : List Field :=
  [.of "id" asInt64, .of "name" asText, .of "entity_1" asText, .of "entity_2" (asOption asText),
    .of "range" (asOption AddressRange.ofJson)]

/-- A statement as it is given, without validation. -/
def ofJson : Reading Statement := fun v => do
  let fs ← Fields.read fields v
  return ⟨⟨← fs.required "id" asInt64⟩, ← fs.required "name" asText,
    ← fs.required "entity_1" asText, ← fs.optional "entity_2" asText,
    ← fs.optional "range" AddressRange.ofJson⟩

end Statement

def Instant.toJson (t : Instant) : Json := .text t.toText

def Instant.ofJson : Reading Instant := asParsed Instant.parse?

namespace Hints

def toJson (h : Hints) : Json :=
  .object [("last_used", ofOption Instant.toJson h.lastUsed),
    ("last_weight", ofOption ofFloat h.lastWeight)]

def ofJson : Reading Hints := fun v => do
  let fs ← Fields.read
    [.of "last_used" (asOption Instant.ofJson), .of "last_weight" (asOption asFloat)] v
  return ⟨← fs.optional "last_used" Instant.ofJson, ← fs.optional "last_weight" asFloat⟩

end Hints

namespace Contribution

def toJson (c : Contribution) : Json :=
  .object [("statement_id", ofInt64 c.statementId.val), ("signer_id", ofInt64 c.signerId.val),
    ("certainty", .int c.certainty.toInt), ("weight", ofFloat c.weight)]

def ofJson : Reading Contribution := fun v => do
  let fs ← Fields.read
    [.of "statement_id" asInt64, .of "signer_id" asInt64, .of "certainty" asInt32,
      .of "weight" asFloat] v
  return ⟨⟨← fs.required "statement_id" asInt64⟩, ⟨← fs.required "signer_id" asInt64⟩,
    ← fs.required "certainty" asInt32, ← fs.required "weight" asFloat⟩

end Contribution

namespace Verdict

def toJson (v : Verdict) : Json :=
  .object [("entity", .text v.entity), ("as_of", v.asOf.toJson), ("score", ofFloat v.score),
    ("no_data", .bool v.noData), ("contributing", .array (v.contributing.map Contribution.toJson))]

def fields : List Field :=
  [.of "entity" asText, .of "as_of" Instant.ofJson, .of "score" asFloat, .of "no_data" asBool,
    .of "contributing" (asList Contribution.ofJson)]

def ofJson : Reading Verdict := fun v => do
  let fs ← Fields.read fields v
  return ⟨← fs.required "entity" asText, ← fs.required "as_of" Instant.ofJson,
    ← fs.required "score" asFloat, ← fs.required "no_data" asBool,
    ← fs.required "contributing" (asList Contribution.ofJson)⟩

end Verdict
end Reputation
