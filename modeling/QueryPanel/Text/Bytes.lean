/-!
# Byte offsets

An editor counts positions in the bytes of a text's UTF-8 encoding. `byteLength` measures a text,
`takeBytes` and `dropBytes` cut it at an offset; an offset inside a character counts as the one
before that character, and one past the end as the end.
-/

namespace QueryPanel.Text

/-- How many bytes the text takes in UTF-8. -/
def byteLength : List Char → Nat
  | [] => 0
  | c :: cs => c.utf8Size + byteLength cs

/-- The characters that end at byte `n` or before. -/
def takeBytes : Nat → List Char → List Char
  | _, [] => []
  | n, c :: cs => if c.utf8Size ≤ n then c :: takeBytes (n - c.utf8Size) cs else []

/-- What `takeBytes n` leaves. -/
def dropBytes : Nat → List Char → List Char
  | _, [] => []
  | n, c :: cs => if c.utf8Size ≤ n then dropBytes (n - c.utf8Size) cs else c :: cs

/-- The offset at which `takeBytes n` cuts: `n`, moved into the text and onto a boundary between
two characters. -/
def clampOffset (cs : List Char) (n : Nat) : Nat :=
  byteLength (takeBytes n cs)

theorem byteLength_append (xs ys : List Char) :
    byteLength (xs ++ ys) = byteLength xs + byteLength ys := by
  induction xs with
  | nil => simp [byteLength]
  | cons c cs ih => simp [byteLength, ih, Nat.add_assoc]

theorem takeBytes_append_dropBytes (n : Nat) (cs : List Char) :
    takeBytes n cs ++ dropBytes n cs = cs := by
  induction cs generalizing n with
  | nil => rfl
  | cons c cs ih =>
    simp only [takeBytes, dropBytes]
    split
    · simp [ih]
    · rfl

theorem clampOffset_le (cs : List Char) (n : Nat) : clampOffset cs n ≤ n := by
  unfold clampOffset
  induction cs generalizing n with
  | nil => simp [takeBytes, byteLength]
  | cons c cs ih =>
    simp only [takeBytes]
    split
    · have := ih (n - c.utf8Size)
      simp only [byteLength]
      omega
    · simp [byteLength]

end QueryPanel.Text
