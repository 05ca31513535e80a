/-!
# Words

How many numbers there are of thirty-two, of sixty-three and of sixty-four bits: the bounds that
whole numbers keep to when they are read.
-/

namespace QueryPanel.Word

/-- The number of words of thirty-two bits. -/
def size32 : Nat := 0x100000000

/-- The number of words of sixty-three bits. -/
def size63 : Nat := 0x8000000000000000

/-- The number of words of sixty-four bits. -/
def size64 : Nat := 0x10000000000000000

end QueryPanel.Word
