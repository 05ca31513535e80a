import QueryPanel.Draft.Basic
import QueryPanel.Json.Record

/-!
# Drafts in JSON

A draft is a record of which only the source and the aggregation have to be there. It is written
with all its members but those that have no value.
-/

namespace QueryPanel

/-- The directions of an ordering by name. -/
def OrderDirection.names : List (String × OrderDirection) :=
  [("asc", .ascending), ("desc", .descending)]

/-- The name of a direction. -/
def OrderDirection.name : OrderDirection → String
  | .ascending => "asc"
  | .descending => "desc"

namespace AddOns

/-- Add-ons as a record. -/
def toJson (a : AddOns) : Json :=
  .object [("groupBy", .bool a.groupBy), ("having", .bool a.having), ("orderBy", .bool a.orderBy),
    ("limit", .bool a.limit), ("legend", .bool a.legend)]

/-- Reads add-ons. Those that are left out are off. -/
def ofJson? (v : Json) : Option AddOns := do
  let get ← v.members? ["groupBy", "having", "orderBy", "limit", "legend"]
  let groupBy ← Json.withDefault false Json.asBool? (get "groupBy")
  let having ← Json.withDefault false Json.asBool? (get "having")
  let orderBy ← Json.withDefault false Json.asBool? (get "orderBy")
  let limit ← Json.withDefault false Json.asBool? (get "limit")
  let legend ← Json.withDefault false Json.asBool? (get "legend")
  some { groupBy, having, orderBy, limit, legend }

end AddOns

namespace Draft

/-- The names of the members, in their order. -/
def memberNames : List String :=
  ["id", "name", "dataSource", "signalSource", "whereClause", "aggregation", "stepInterval",
    "groupBy", "metricName", "metricType", "addOns", "having", "orderBy", "orderDirection", "limit",
    "legend", "enabled"]

/-- The members that a draft is written as. -/
def members (d : Draft) : List (String × Option Json) :=
  [("id", d.id.map fun u => .string u.toText), ("name", some (.string d.name)),
    ("dataSource", some (.string d.source.name)), ("signalSource", d.signalSource.map .string),
    ("whereClause", some (.string d.whereText)), ("aggregation", some (.string d.aggregation)),
    ("stepInterval", some (.string d.step)), ("groupBy", d.groupBy.map .string),
    ("metricName", d.metricName.map .string), ("metricType", d.metricType.map .string),
    ("addOns", some d.addOns.toJson), ("having", d.having.map .string),
    ("orderBy", d.orderBy.map .string),
    ("orderDirection", some (.string d.orderDirection.name)), ("limit", d.limit.map .nat),
    ("legend", d.legend.map .string), ("enabled", some (.bool d.enabled))]

/-- A draft as a record. -/
def toJson (d : Draft) : Json :=
  .record d.members

/-- Reads an identifier. -/
def idOfJson? (v : Json) : Option Uuid :=
  v.asString?.bind Uuid.ofText?

/-- Reads a draft. -/
def ofJson? (v : Json) : Option Draft := do
  let get ← v.members? memberNames
  let id ← Json.withDefault none (fun v => (idOfJson? v).map some) (get "id")
  let name ← Json.withDefault "" Json.asString? (get "name")
  let source ← Json.required (Json.asChoice? Source.names) (get "dataSource")
  let signalSource ← Json.optional Json.asString? (get "signalSource")
  let whereText ← Json.withDefault "" Json.asString? (get "whereClause")
  let aggregation ← Json.required Json.asString? (get "aggregation")
  let step ← Json.withDefault "auto" Json.asString? (get "stepInterval")
  let groupBy ← Json.optional Json.asString? (get "groupBy")
  let metricName ← Json.optional Json.asString? (get "metricName")
  let metricType ← Json.optional Json.asString? (get "metricType")
  let addOns ← Json.withDefault {} AddOns.ofJson? (get "addOns")
  let having ← Json.optional Json.asString? (get "having")
  let orderBy ← Json.optional Json.asString? (get "orderBy")
  let orderDirection ← Json.withDefault .descending (Json.asChoice? OrderDirection.names)
    (get "orderDirection")
  let limit ← Json.optional Json.asWord32? (get "limit")
  let legend ← Json.optional Json.asString? (get "legend")
  let enabled ← Json.withDefault true Json.asBool? (get "enabled")
  some { id, name, source, signalSource, whereText, aggregation, step, groupBy, metricName,
         metricType, addOns, having, orderBy, orderDirection, limit, legend, enabled }

end Draft

/-- An object with the members of another in place of its own ones of those names. -/
def Json.overwrittenBy (v changes : Json) : Json :=
  match v, changes with
  | .object ms, .object cs => .object (cs ++ ms.filter fun m => !cs.any fun c => c.1 == m.1)
  | v, _ => v

/-- The draft with some of its members replaced, as they are written, unless it would not be one. -/
def Draft.setMembers? (d : Draft) (changes : Json) : Option Draft :=
  Draft.ofJson? (d.toJson.overwrittenBy changes)

end QueryPanel
