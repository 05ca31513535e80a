import QueryPanel.Json.Record
import QueryPanel.Filter.Bag

/-!
# Filters in JSON

Filter fields are a record in which members without a value are left out. A filter bag has the same
members and its own three beside them, all on one level, so it is always written as an object.
-/

namespace QueryPanel

namespace AttributeFilter

/-- An attribute filter as a record of two strings. -/
def toJson (a : AttributeFilter) : Json :=
  .object [("key", .string a.key), ("value", .string a.value)]

/-- Reads an attribute filter. -/
def ofJson? (v : Json) : Option AttributeFilter := do
  let get ← v.members? ["key", "value"]
  let key ← Json.required Json.asString? (get "key")
  let value ← Json.required Json.asString? (get "value")
  some ⟨key, value⟩

end AttributeFilter

/-- A number, or null in place of one that is not finite. -/
def Double.toJson (d : Double) : Json :=
  if d.isFinite then .real d else .null

namespace FilterFields

/-- The names of the members, in their order. -/
def memberNames : List String :=
  ["service", "spanName", "environment", "commitSha", "severity", "httpMethod", "httpStatusCode",
    "hasError", "rootOnly", "minDurationMs", "maxDurationMs", "attribute", "resource"]

/-- The members that filter fields are written as. -/
def members (fields : FilterFields) : List (String × Option Json) :=
  [("service", fields.service.map .string), ("spanName", fields.spanName.map .string),
    ("environment", fields.environment.map .string), ("commitSha", fields.commitSha.map .string),
    ("severity", fields.severity.map .string), ("httpMethod", fields.httpMethod.map .string),
    ("httpStatusCode", fields.httpStatusCode.map .string), ("hasError", fields.hasError.map .bool),
    ("rootOnly", fields.rootOnly.map .bool), ("minDurationMs", fields.minDuration.map (·.toJson)),
    ("maxDurationMs", fields.maxDuration.map (·.toJson)), ("attribute", fields.attr.map (·.toJson)),
    ("resource", fields.resource.map (·.toJson))]

/-- Reads filter fields from the members of a record. -/
def ofMembers? (get : String → Option Json) : Option FilterFields := do
  let service ← Json.optional Json.asString? (get "service")
  let spanName ← Json.optional Json.asString? (get "spanName")
  let environment ← Json.optional Json.asString? (get "environment")
  let commitSha ← Json.optional Json.asString? (get "commitSha")
  let severity ← Json.optional Json.asString? (get "severity")
  let httpMethod ← Json.optional Json.asString? (get "httpMethod")
  let httpStatusCode ← Json.optional Json.asString? (get "httpStatusCode")
  let hasError ← Json.optional Json.asBool? (get "hasError")
  let rootOnly ← Json.optional Json.asBool? (get "rootOnly")
  let minDuration ← Json.optional Json.asDouble? (get "minDurationMs")
  let maxDuration ← Json.optional Json.asDouble? (get "maxDurationMs")
  let attr ← Json.optional AttributeFilter.ofJson? (get "attribute")
  let resource ← Json.optional AttributeFilter.ofJson? (get "resource")
  some { service, spanName, environment, commitSha, severity, httpMethod, httpStatusCode,
         hasError, rootOnly, minDuration, maxDuration, attr, resource }

/-- Filter fields as a record. -/
def toJson (fields : FilterFields) : Json :=
  .record fields.members

/-- Reads filter fields. -/
def ofJson? (v : Json) : Option FilterFields :=
  (v.members? memberNames).bind ofMembers?

end FilterFields

namespace FilterBag

/-- A filter bag as an object. -/
def toJson (bag : FilterBag) : Json :=
  .record (bag.fields.members ++
    [("metricName", bag.metricName.map .string), ("metricType", bag.metricType.map .string),
      ("search", bag.search.map .string)])

/-- Reads a filter bag, which has to be an object. -/
def ofJson? : Json → Option FilterBag
  | .object ms => do
    let get ← (Json.object ms).members?
      (FilterFields.memberNames ++ ["metricName", "metricType", "search"])
    let fields ← FilterFields.ofMembers? get
    let metricName ← Json.optional Json.asString? (get "metricName")
    let metricType ← Json.optional Json.asString? (get "metricType")
    let search ← Json.optional Json.asString? (get "search")
    some { fields, metricName, metricType, search }
  | _ => none

end FilterBag

end QueryPanel
