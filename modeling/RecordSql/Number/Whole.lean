import RecordSql.Number.Decimal
import RecordSql.Text.Blank

/-!
# Whole numbers in data

`Whole.read` reads a whole number. Its plain form is a run of digits, perhaps after a minus sign, without a zero to
spare in front. A number may also have what can be taken off without changing it: blanks around it, a plus sign, zeros
in front, single underscores between digits, and a point before zeros at its end.
-/

namespace RecordSql.Whole

/-- Why a text is no whole number. -/
inductive Fault
  | unreadable
  /-- It has more digits than are read. -/
  | oversized
  deriving DecidableEq, Repr

/-- How many digits a whole number may have. -/
def mostDigits : Nat := 4300

/-- Reads a whole number in its plain form: digits without a zero to spare in front, perhaps after a minus sign. That
there are too many digits shows before what follows them. -/
def readPlain (cs : List Char) : Except Fault Int :=
  let negative := cs.head? = some '-'
  let digits := if negative then cs.tail else cs
  let run := digits.takeWhile Char.isDigit
  if run.head? = some '0' ∧ 1 < run.length then .error .unreadable
  else if mostDigits < run.length then .error .oversized
  else match Decimal.natOfDigits? digits with
    | some n => .ok (if negative then -(n : Int) else n)
    | none => .error .unreadable

/-- The rest of a number after a zero in front: the zeros and underscores that follow are passed over, a sign starts the
number anew, and the last character before a point or the end stays. -/
def afterZero (last : Char) : List Char → Option (List Char)
  | [] => some [last]
  | c :: rest =>
    if c = '0' ∨ c = '_' then afterZero c rest
    else if c.isDigit ∨ c = '-' then some (c :: rest)
    else if c = '.' then some (last :: c :: rest)
    else none

/-- A number without the zeros in front. It has to begin with a digit. -/
def dropZeros? : List Char → Option (List Char)
  | [] => none
  | c :: rest => if c = '0' then afterZero c rest else if c.isDigit then some (c :: rest) else none

/-- A text without a point that zeros, and only zeros, follow. -/
def dropPoint (cs : List Char) : List Char :=
  let part := (cs.dropWhile (· ≠ '.')).drop 1
  if !part.isEmpty && part.all (· = '0') then cs.takeWhile (· ≠ '.') else cs

/-- A whole number in its plain form, as far as what stands around its digits can be taken off: blanks at the ends, a
sign, zeros in front, a point before zeros, and single underscores. -/
def tidy? (cs : List Char) : Option (List Char) := do
  let body ← match Text.trim cs with
    | '+' :: '-' :: _ => none
    | '+' :: rest => some rest
    | cs => some cs
  let (sign, digits) := match body with
    | '-' :: rest => (['-'], rest)
    | cs => ([], cs)
  let digits := dropPoint (← dropZeros? digits)
  return sign ++ (Decimal.dropUnderscores? digits).getD digits

/-- Reads a whole number in its plain form or in one that can be tidied. That it has too many digits is told only of
the plain form. -/
def read (text : String) : Except Fault Int :=
  match readPlain text.toList with
  | .error .unreadable => match (tidy? text.toList).map readPlain with
    | some (.ok n) => .ok n
    | _ => .error .unreadable
  | outcome => outcome

end RecordSql.Whole
