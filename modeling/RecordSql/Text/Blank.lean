/-!
# Blank characters

`isBlank` holds of the characters with the Unicode property *white space*; `trim` takes them off both ends of a text.
`isSpace` holds also of the four control characters that separate parts of a file; `strip` is to it what `trim` is to
the other.
-/

namespace RecordSql.Text

/-- Whether a character has the property white space. -/
def isBlank (c : Char) : Bool :=
  let n := c.toNat
  (decide (0x09 ≤ n) && decide (n ≤ 0x0D)) || (decide (0x2000 ≤ n) && decide (n ≤ 0x200A))
    || [0x20, 0x85, 0xA0, 0x1680, 0x2028, 0x2029, 0x202F, 0x205F, 0x3000].contains n

/-- Whether a character is blank or one of the separators of files, groups, records and units. -/
def isSpace (c : Char) : Bool := isBlank c || (decide (0x1C ≤ c.toNat) && decide (c.toNat ≤ 0x1F))

/-- The text without the characters of a kind at its two ends. -/
def dropEnds (kind : Char → Bool) (cs : List Char) : List Char :=
  ((cs.dropWhile kind).reverse.dropWhile kind).reverse

/-- The text without the blanks at its two ends. -/
def trim (cs : List Char) : List Char := dropEnds isBlank cs

/-- The text without the blanks and separators at its two ends. -/
def strip (cs : List Char) : List Char := dropEnds isSpace cs

end RecordSql.Text
