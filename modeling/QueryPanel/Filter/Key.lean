import QueryPanel.Text.Lower
import QueryPanel.Text.Search

/-!
# Filter keys

Keys are compared without regard to case, some have a short alias, and two families of keys name an
attribute of a span or log record, or of the resource it comes from. The name of an attribute keeps
its case.
-/

namespace QueryPanel

/-- A field that holds one text. -/
inductive TextField where
  | service
  | spanName
  | environment
  | commitSha
  | severity
  | httpMethod
  | httpStatusCode
  deriving DecidableEq

/-- What a key filters on. -/
inductive FilterKey where
  | text (field : TextField)
  | hasError
  | rootOnly
  | minDuration
  | maxDuration
  | attr (name : String)
  | resource (name : String)
  deriving DecidableEq

namespace TextField

/-- All text fields, in the order in which they are written. -/
def all : List TextField :=
  [.service, .spanName, .environment, .commitSha, .severity, .httpMethod, .httpStatusCode]

/-- The key of a text field. -/
def key : TextField → String
  | .service => "service.name"
  | .spanName => "span.name"
  | .environment => "deployment.environment"
  | .commitSha => "deployment.commit_sha"
  | .severity => "severity"
  | .httpMethod => "http.method"
  | .httpStatusCode => "http.status_code"

end TextField

namespace FilterKey

/-- What the keys of attributes begin with. -/
def attributeHead : String := "attr."

/-- What the keys of resource attributes begin with. -/
def resourceHead : String := "resource."

/-- Short keys and what they stand for. -/
def aliases : List (String × String) :=
  [("service", "service.name"), ("span_name", "span.name"),
    ("environment", "deployment.environment"), ("env", "deployment.environment"),
    ("commit_sha", "deployment.commit_sha"), ("severity_text", "severity")]

/-- The one spelling of a key: trimmed and in lower case, with aliases resolved. What follows the
head of an attribute's key is left as it is. -/
def normalize (raw : String) : String :=
  let trimmed := Text.trim raw.toList
  let low := Text.lower trimmed
  if Text.beginsWith attributeHead.toList low then
    String.ofList (attributeHead.toList ++ trimmed.drop attributeHead.length)
  else if Text.beginsWith resourceHead.toList low then
    String.ofList (resourceHead.toList ++ trimmed.drop resourceHead.length)
  else (aliases.lookup (String.ofList low)).getD (String.ofList low)

/-- The keys with one spelling each. -/
def simpleKeys : List (String × FilterKey) :=
  TextField.all.map (fun f => (f.key, .text f)) ++
    [("has_error", .hasError), ("root_only", .rootOnly), ("min_duration_ms", .minDuration),
      ("max_duration_ms", .maxDuration)]

/-- What a key in its one spelling filters on. -/
def ofNormal? (canonical : String) : Option FilterKey :=
  match simpleKeys.lookup canonical with
  | some key => some key
  | none =>
    match Text.after? attributeHead.toList canonical.toList,
        Text.after? resourceHead.toList canonical.toList with
    | some name, _ => some (.attr (String.ofList name))
    | none, some name => some (.resource (String.ofList name))
    | none, none => none

/-- What a key filters on, if it is a known one. -/
def classify (raw : String) : Option FilterKey :=
  ofNormal? (normalize raw)

end FilterKey

end QueryPanel
