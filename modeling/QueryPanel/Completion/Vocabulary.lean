import QueryPanel.Query.Source

/-!
# Vocabularies and catalogs

What an editor can suggest: the keys that belong to what it filters, each with a description, and
the values that facet queries have found.
-/

namespace QueryPanel

/-- What an editor filters. The full-text search of traces knows more keys than queries on traces.
-/
inductive Scope where
  | traces
  | logs
  | metrics
  | traceSearch
  deriving DecidableEq

/-- A key and what it is for. -/
structure KeyEntry where
  key : String
  description : String
  deriving DecidableEq

namespace Scope

/-- The scopes by name. -/
def names : List (String × Scope) :=
  [("traces", .traces), ("logs", .logs), ("metrics", .metrics), ("trace_search", .traceSearch)]

/-- The scope of queries on a source. -/
def ofSource : Source → Scope
  | .traces => .traces
  | .logs => .logs
  | .metrics => .metrics

/-- The key of the service. -/
def serviceEntry : KeyEntry := ⟨"service.name", "Service emitting the telemetry"⟩

/-- The key of the operation. -/
def spanEntry : KeyEntry := ⟨"span.name", "Operation name of the span"⟩

/-- The keys of the deployment. -/
def deploymentEntries : List KeyEntry :=
  [⟨"deployment.environment", "Deployment environment"⟩,
    ⟨"deployment.commit_sha", "Commit SHA of the deployment"⟩]

/-- The keys that take a truth value. -/
def flagEntries : List KeyEntry :=
  [⟨"has_error", "Only spans with an error status"⟩,
    ⟨"root_only", "Restrict to root spans (default true)"⟩]

/-- The heads of the two families of attribute keys. -/
def attributeEntries : List KeyEntry :=
  [⟨"attr.", "Filter on a span or log attribute"⟩, ⟨"resource.", "Filter on a resource attribute"⟩]

/-- The keys of a scope, in the order in which they are offered. -/
def entries : Scope → List KeyEntry
  | .traces => serviceEntry :: spanEntry :: deploymentEntries ++ flagEntries ++ attributeEntries
  | .logs =>
    serviceEntry :: ⟨"severity", "Log severity text"⟩ :: deploymentEntries ++ attributeEntries
  | .metrics =>
    serviceEntry :: ⟨"metric.type", "Instrument type of the metric"⟩ :: deploymentEntries.take 1
      ++ attributeEntries
  | .traceSearch =>
    serviceEntry :: spanEntry :: deploymentEntries ++
      [⟨"http.method", "HTTP request method"⟩,
        ⟨"http.status_code", "HTTP response status code"⟩] ++ flagEntries ++
      [⟨"min_duration_ms", "Minimum span duration in milliseconds"⟩,
        ⟨"max_duration_ms", "Maximum span duration in milliseconds"⟩] ++ attributeEntries

end Scope

/-- The values that facet queries have found. -/
structure Catalogs where
  services : List String := []
  spanNames : List String := []
  environments : List String := []
  commitShas : List String := []
  severities : List String := []
  httpMethods : List String := []
  httpStatusCodes : List String := []
  attributeKeys : List String := []
  resourceKeys : List String := []
  /-- The values of each attribute. -/
  attributeValues : List (String × List String) := []
  /-- The values of each resource attribute. -/
  resourceValues : List (String × List String) := []
  metricTypes : List String := []

end QueryPanel
