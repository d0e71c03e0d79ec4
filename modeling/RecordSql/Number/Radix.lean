import RecordSql.Number.Decimal
import RecordSql.Text.Blank
import RecordSql.Text.Digit

/-!
# Whole numbers in a base

`Radix.read?` reads a whole number that is written in a base from 2 to 36: blanks around it, a sign, a prefix that says
the base again, digits, and single underscores between them. Base 0 stands for the base that the prefix says, or ten.
-/

namespace RecordSql.Radix

/-- The value of a digit, in all scripts, or of a letter that is used as a digit. -/
def digit? (c : Char) : Option Nat :=
  match Text.decimalValue? c with
  | some d => some d
  | none =>
    let l := c.toLower
    if 'a' ≤ l ∧ l ≤ 'z' then some (l.toNat - 'a'.toNat + 10) else none

/-- The number that digits of a base spell; `none` if there are none. -/
def natOf? (base : Nat) : List Char → Option Nat
  | [] => none
  | cs => cs.foldlM (fun n c => (digit? c).bind fun d => if d < base then some (base * n + d) else none) 0

/-- The base that a prefix says, and the rest. -/
def splitPrefix? : List Char → Option (Nat × List Char)
  | '0' :: c :: rest =>
    if c = 'x' ∨ c = 'X' then some (16, rest)
    else if c = 'o' ∨ c = 'O' then some (8, rest)
    else if c = 'b' ∨ c = 'B' then some (2, rest)
    else none
  | _ => none

/-- Digits with single underscores between them, one also behind a prefix. -/
def bodyOf? (base : Nat) (cs : List Char) : Option Nat := (Decimal.dropUnderscores? cs).bind (natOf? base)

/-- A number without its sign. -/
def unsigned? (base : Nat) (cs : List Char) : Option Nat :=
  match splitPrefix? cs with
  | some (said, rest) =>
    if base = 0 ∨ base = said then bodyOf? said (if rest.head? = some '_' then rest.tail else rest)
    else bodyOf? base cs
  | none =>
    if base ≠ 0 then bodyOf? base cs
    else match bodyOf? 10 cs with
      | some n => if n ≠ 0 ∧ cs.head?.bind digit? = some 0 then none else some n
      | none => none

/-- Whether a base can be asked for. -/
def isBase (base : Int) : Bool := base = 0 || (2 ≤ base && base ≤ 36)

/-- How many digits a number may have, unless its base is a power of two. -/
def mostDigits : Nat := 4300

/-- The number of digits that a text begins with, if they are too many to be read in a base. Digits that no single
underscores part are none that could be read. -/
def excess? (base : Nat) (text : String) : Option Nat :=
  let (_, cs) := Decimal.splitSign (Text.strip text.toList)
  if [2, 4, 8, 16, 32].contains base ∨ (base = 0 ∧ (splitPrefix? cs).isSome) then none
  else
    let isDigit (c : Char) : Bool := (digit? c).any (· < if base = 0 then 10 else base)
    (Decimal.dropUnderscores? (cs.takeWhile fun c => isDigit c || c == '_')).bind fun digits =>
      if mostDigits < digits.length then some digits.length else none

/-- The whole number that a text spells in a base. -/
def read? (base : Nat) (text : String) : Option Int :=
  let (negative, digits) := Decimal.splitSign (Text.strip text.toList)
  (unsigned? base digits).map fun n => if negative then -(n : Int) else n

end RecordSql.Radix
