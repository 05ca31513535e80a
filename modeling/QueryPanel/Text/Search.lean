/-!
# Beginnings, parts and pieces of texts

Whether one text begins or contains another or equals it but for ASCII case, and cutting a text at a
separating character.
-/

namespace QueryPanel.Text

/-- The text begins with `needle`. -/
def beginsWith (needle text : List Char) : Bool :=
  needle.isPrefixOf text

/-- The text has `needle` somewhere in it. -/
def contains (needle : List Char) : List Char → Bool
  | [] => needle.isEmpty
  | c :: cs => beginsWith needle (c :: cs) || contains needle cs

/-- Two texts that differ at most in the case of ASCII letters. -/
def eqIgnoreCase (xs ys : List Char) : Bool :=
  xs.map Char.toLower == ys.map Char.toLower

/-- What follows `head` in a text that begins with it. -/
def after? (head text : List Char) : Option (List Char) :=
  if beginsWith head text then some (text.drop head.length) else none

/-- The piece of a text before the first `sep` in it, and the pieces between the others. -/
def cutAt (sep : Char) : List Char → List Char × List (List Char)
  | [] => ([], [])
  | c :: cs =>
    let (piece, pieces) := cutAt sep cs
    if c = sep then ([], piece :: pieces) else (c :: piece, pieces)

/-- The pieces of a text around the characters `sep`: one more than `sep` occurs. -/
def piecesAt (sep : Char) (cs : List Char) : List (List Char) :=
  (cutAt sep cs).1 :: (cutAt sep cs).2

/-- `contains` decides whether a text has another as a part. -/
theorem contains_iff (needle text : List Char) :
    contains needle text = true ↔ needle <:+: text := by
  induction text with
  | nil => simp [contains]
  | cons c cs ih =>
    simp only [contains, beginsWith, Bool.or_eq_true, List.isPrefixOf_iff_prefix, ih,
      List.infix_cons_iff]

end QueryPanel.Text
