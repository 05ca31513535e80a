import QueryPanel.Json.Record
import QueryPanel.Clause.Slot

/-!
# Slots in JSON
-/

namespace QueryPanel.Slot

/-- A slot as a record, with a member for the key only when there is one. -/
def toJson (s : Slot) : Json :=
  .record [("kind", some (.string s.kind.name)), ("query", some (.string s.query)),
    ("key", s.key.map .string), ("replaceStart", some (.nat s.start)),
    ("replaceEnd", some (.nat s.stop))]

end QueryPanel.Slot
