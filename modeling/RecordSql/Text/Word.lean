/-!
# Words

A *word* can name a thing in a declaration: letters, digits and underscores that do not start with a digit. What is not
in ASCII counts as a letter.
-/

namespace RecordSql.Text

/-- Whether a character can be part of a word. -/
def isWordChar (c : Char) : Bool := c.isAlphanum || c = '_' || 0x80 ≤ c.toNat

/-- Whether a text is a word. -/
def isWord (s : String) : Bool :=
  s.toList.head?.any (fun c => isWordChar c && !c.isDigit) && s.toList.all isWordChar

end RecordSql.Text
