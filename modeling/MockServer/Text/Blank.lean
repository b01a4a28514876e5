/-
  MockServer.Text.Blank — white space (the Unicode property
  `White_Space`) and trimming.
-/

namespace MockServer.Text

/-- Has the character the property `White_Space`? -/
def isBlank (c : Char) : Bool :=
  let n := c.toNat
  (9 ≤ n && n ≤ 13) || n == 0x20 || n == 0x85 || n == 0xA0 || n == 0x1680 ||
  (0x2000 ≤ n && n ≤ 0x200A) || n == 0x2028 || n == 0x2029 || n == 0x202F || n == 0x205F ||
  n == 0x3000

/-- Drops from both ends the characters with a property. -/
def trimWhile (p : Char → Bool) (cs : List Char) : List Char :=
  ((cs.dropWhile p).reverse.dropWhile p).reverse

/-- A character list without white space at its ends. -/
def trimChars (cs : List Char) : List Char := trimWhile isBlank cs

/-- A text without white space at its ends. -/
def trim (s : String) : String := String.ofList (trimChars s.toList)

/-- Has the text no character but white space? -/
def isBlankText (s : String) : Bool := s.toList.all isBlank

end MockServer.Text
