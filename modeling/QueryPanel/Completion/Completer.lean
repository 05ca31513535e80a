import QueryPanel.Filter.Key
import QueryPanel.Query.MetricType
import QueryPanel.Settings
import QueryPanel.Completion.Vocabulary
import QueryPanel.Completion.Suggestion

/-!
# Completing a slot

Which candidates there are for the slot at the cursor, and the best of them. Keys come from the
vocabulary of the scope, or from the attributes found so far once the head of an attribute key has
been typed. Values come from the catalog of their key and are inserted in double quotes; truth
values and metric types are inserted bare.
-/

namespace QueryPanel

/-- What completion depends on besides the text: how many suggestions to offer, and the beginnings
of attribute names that are offered last. -/
structure Completer where
  limit : Nat
  noisyHeads : List (List Char)

namespace Completer

/-- The completer of some settings. It offers at least one suggestion. -/
def ofSettings (s : Settings) : Completer :=
  ⟨max s.maxSuggestions 1, s.noisyHeads.map fun h => Text.lower h.toList⟩

/-- The same completer with another number of suggestions, at least one. -/
def withLimit (c : Completer) (limit : Nat) : Completer :=
  { c with limit := max limit 1 }

/-- An attribute that is offered after all others. -/
def isNoisy (c : Completer) (name : String) : Bool :=
  c.noisyHeads.any fun head => Text.beginsWith head (Text.lower name.toList)

/-- The entries of a catalog: each once, where it comes first, and none that is empty. -/
def distinct (entries : List String) : List String :=
  (entries.filter (· ≠ "")).eraseDups

/-- The keys of attributes found so far. -/
def foundKeys (c : Completer) (head : String) (names : List String) : List Candidate :=
  (distinct names).map fun name =>
    ⟨⟨.key, head ++ name, head ++ name, none⟩, c.isNoisy name⟩

/-- The keys that may go where `typed` stands. -/
def keyCandidates (c : Completer) (scope : Scope) (typed : String) (catalogs : Catalogs) :
    List Candidate :=
  let low := Text.lower typed.toList
  if Text.beginsWith FilterKey.attributeHead.toList low then
    c.foundKeys FilterKey.attributeHead catalogs.attributeKeys
  else if Text.beginsWith FilterKey.resourceHead.toList low then
    c.foundKeys FilterKey.resourceHead catalogs.resourceKeys
  else scope.entries.map fun e => { suggestion := ⟨.key, e.key, e.key, some e.description⟩ }

/-- A value that is inserted as it is. -/
def bareValue (value : String) : Candidate :=
  { suggestion := ⟨.value, value, value, none⟩ }

/-- The values of a catalog, inserted in double quotes. -/
def quotedValues (values : List String) : List Candidate :=
  (distinct values).map fun v =>
    { suggestion := ⟨.value, v, String.ofList (Quote.quoteDouble v.toList), none⟩ }

/-- The catalog of a text field. HTTP fields have one only where they can be searched. -/
def catalogOf (scope : Scope) (catalogs : Catalogs) : TextField → List String
  | .service => catalogs.services
  | .spanName => catalogs.spanNames
  | .environment => catalogs.environments
  | .commitSha => catalogs.commitShas
  | .severity => catalogs.severities
  | .httpMethod => if scope = .traceSearch then catalogs.httpMethods else []
  | .httpStatusCode => if scope = .traceSearch then catalogs.httpStatusCodes else []

/-- The values that may go behind a key. -/
def valueCandidates (scope : Scope) (key : String) (catalogs : Catalogs) : List Candidate :=
  let canonical := FilterKey.normalize key
  if canonical = "metric.type" then
    (if catalogs.metricTypes.isEmpty then MetricType.all.map MetricType.name
      else catalogs.metricTypes).map bareValue
  else
    match FilterKey.ofNormal? canonical with
    | some (.attr name) => quotedValues ((catalogs.attributeValues.lookup name).getD [])
    | some (.resource name) => quotedValues ((catalogs.resourceValues.lookup name).getD [])
    | some .hasError => ["true", "false"].map bareValue
    | some .rootOnly => ["true", "false"].map bareValue
    | some (.text field) => quotedValues (catalogOf scope catalogs field)
    | _ => []

/-- The operator. -/
def equals : Suggestion :=
  ⟨.operator, "=", "=", some "equals"⟩

/-- The conjunction. -/
def conjunction : Suggestion :=
  ⟨.conjunction, "AND", "AND", some "combine with another condition"⟩

/-- What may go into a slot. -/
def candidates (c : Completer) (scope : Scope) (slot : Slot) (catalogs : Catalogs) :
    List Candidate :=
  match slot.kind with
  | .key => c.keyCandidates scope slot.query catalogs
  | .operator => [{ suggestion := equals }]
  | .value => (slot.key.map fun key => valueCandidates scope key catalogs).getD []
  | .conjunction => [{ suggestion := conjunction }]

/-- The suggestions for a slot, the best first. -/
def suggest (c : Completer) (scope : Scope) (slot : Slot) (catalogs : Catalogs) :
    List Suggestion :=
  (Candidate.rank (c.candidates scope slot catalogs) slot.query).take c.limit

end Completer

end QueryPanel
