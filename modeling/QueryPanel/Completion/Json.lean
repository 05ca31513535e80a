import QueryPanel.Clause.Json
import QueryPanel.Completion.Editor

/-!
# Completion in JSON
-/

namespace QueryPanel

/-- A suggestion as a record. -/
def Suggestion.toJson (s : Suggestion) : Json :=
  .record [("id", some (.string s.id)), ("kind", some (.string s.kind.name)),
    ("label", some (.string s.label)), ("insertText", some (.string s.insertText)),
    ("description", s.description.map .string)]

/-- An editor as a record. -/
def Editor.toJson (e : Editor) : Json :=
  .object [("expression", .string e.expression), ("cursor", .nat e.cursor)]

namespace Catalogs

/-- The names of the members, in their order. -/
def memberNames : List String :=
  ["services", "spanNames", "environments", "commitShas", "severities", "httpMethods",
    "httpStatusCodes", "attributeKeys", "resourceKeys", "attributeValues", "resourceValues",
    "metricTypes"]

/-- Reads catalogs. Any of them may be absent, which makes it empty. -/
def ofJson? (v : Json) : Option Catalogs := do
  let get ← v.members? memberNames
  let strings (name : String) := Json.withDefault [] (Json.asList? Json.asString?) (get name)
  let tables (name : String) :=
    Json.withDefault [] (Json.asEntries? (Json.asList? Json.asString?)) (get name)
  let services ← strings "services"
  let spanNames ← strings "spanNames"
  let environments ← strings "environments"
  let commitShas ← strings "commitShas"
  let severities ← strings "severities"
  let httpMethods ← strings "httpMethods"
  let httpStatusCodes ← strings "httpStatusCodes"
  let attributeKeys ← strings "attributeKeys"
  let resourceKeys ← strings "resourceKeys"
  let attributeValues ← tables "attributeValues"
  let resourceValues ← tables "resourceValues"
  let metricTypes ← strings "metricTypes"
  some { services, spanNames, environments, commitShas, severities, httpMethods, httpStatusCodes,
         attributeKeys, resourceKeys, attributeValues, resourceValues, metricTypes }

end Catalogs

end QueryPanel
