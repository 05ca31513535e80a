import QueryPanel.Number.Double
import QueryPanel.Filter.Key

/-!
# Filter fields

The structured form of a filter text. A field without a value asks for nothing. A filter text can
ask for errors only and for spans other than roots; the opposites are what happens without a filter,
so `hasError` is only ever read as `true` and `rootOnly` only as `false`.

`canonical` removes from fields what no text can say.
-/

namespace QueryPanel

/-- The name of an attribute and the value it must have. -/
structure AttributeFilter where
  key : String
  value : String
  deriving DecidableEq

/-- What a filter asks for. -/
structure FilterFields where
  service : Option String := none
  spanName : Option String := none
  environment : Option String := none
  commitSha : Option String := none
  severity : Option String := none
  httpMethod : Option String := none
  httpStatusCode : Option String := none
  hasError : Option Bool := none
  rootOnly : Option Bool := none
  minDuration : Option Double := none
  maxDuration : Option Double := none
  attr : Option AttributeFilter := none
  resource : Option AttributeFilter := none
  deriving DecidableEq

namespace FilterFields

/-- A filter that asks for nothing. -/
def empty : FilterFields := {}

/-- A filter that asks for nothing. -/
def isEmpty (fields : FilterFields) : Bool :=
  decide (fields = empty)

/-- The value of a text field. -/
def text (fields : FilterFields) : TextField → Option String
  | .service => fields.service
  | .spanName => fields.spanName
  | .environment => fields.environment
  | .commitSha => fields.commitSha
  | .severity => fields.severity
  | .httpMethod => fields.httpMethod
  | .httpStatusCode => fields.httpStatusCode

/-- The fields with another value in a text field. -/
def setText (fields : FilterFields) (value : Option String) : TextField → FilterFields
  | .service => { fields with service := value }
  | .spanName => { fields with spanName := value }
  | .environment => { fields with environment := value }
  | .commitSha => { fields with commitSha := value }
  | .severity => { fields with severity := value }
  | .httpMethod => { fields with httpMethod := value }
  | .httpStatusCode => { fields with httpStatusCode := value }

/-- What `patch` asks for, and what `fields` asks for where `patch` is silent. -/
def mergedWith (fields patch : FilterFields) : FilterFields where
  service := patch.service.or fields.service
  spanName := patch.spanName.or fields.spanName
  environment := patch.environment.or fields.environment
  commitSha := patch.commitSha.or fields.commitSha
  severity := patch.severity.or fields.severity
  httpMethod := patch.httpMethod.or fields.httpMethod
  httpStatusCode := patch.httpStatusCode.or fields.httpStatusCode
  hasError := patch.hasError.or fields.hasError
  rootOnly := patch.rootOnly.or fields.rootOnly
  minDuration := patch.minDuration.or fields.minDuration
  maxDuration := patch.maxDuration.or fields.maxDuration
  attr := patch.attr.or fields.attr
  resource := patch.resource.or fields.resource

/-- The fields without what a filter text cannot say: empty texts and attributes, the two defaults,
and durations that are no finite numbers. -/
def canonical (fields : FilterFields) : FilterFields where
  service := fields.service.filter (· ≠ "")
  spanName := fields.spanName.filter (· ≠ "")
  environment := fields.environment.filter (· ≠ "")
  commitSha := fields.commitSha.filter (· ≠ "")
  severity := fields.severity.filter (· ≠ "")
  httpMethod := fields.httpMethod.filter (· ≠ "")
  httpStatusCode := fields.httpStatusCode.filter (· ≠ "")
  hasError := fields.hasError.filter (· = true)
  rootOnly := fields.rootOnly.filter (· = false)
  minDuration := fields.minDuration.filter (·.isFinite)
  maxDuration := fields.maxDuration.filter (·.isFinite)
  attr := fields.attr.filter (·.value ≠ "")
  resource := fields.resource.filter (·.value ≠ "")

@[simp]
theorem text_setText_self (fields : FilterFields) (value : Option String) (f : TextField) :
    (fields.setText value f).text f = value := by
  cases f <;> rfl

theorem text_setText_of_ne (fields : FilterFields) (value : Option String) {f g : TextField}
    (h : g ≠ f) : (fields.setText value f).text g = fields.text g := by
  cases f <;> cases g <;> simp_all [setText, text]

theorem text_mergedWith (fields patch : FilterFields) (f : TextField) :
    (fields.mergedWith patch).text f = (patch.text f).or (fields.text f) := by
  cases f <;> rfl

theorem text_canonical (fields : FilterFields) (f : TextField) :
    fields.canonical.text f = (fields.text f).filter (· ≠ "") := by
  cases f <;> rfl

end FilterFields

end QueryPanel
