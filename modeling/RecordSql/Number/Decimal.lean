import RecordSql.Number.Double

/-!
# Reading decimal text

`Double.ofText?` reads `[sign] digits [. digits] [e [sign] digits]` with a digit before or after the point, or one of
the words `nan`, `inf`, `infinity` in any case, and gives the nearest double.
-/

namespace RecordSql

namespace Decimal

/-- The value of a decimal digit of ASCII. -/
def digit? (c : Char) : Option Nat :=
  if c.isDigit then some (c.toNat - '0'.toNat) else none

/-- The number that a run of digits spells; `none` at anything else, and for the empty run. -/
def natOfDigits? : List Char → Option Nat
  | [] => none
  | cs => cs.foldlM (fun n c => (digit? c).map (10 * n + ·)) 0

/-- An optional sign, and the rest. -/
def splitSign : List Char → Bool × List Char
  | '-' :: rest => (true, rest)
  | '+' :: rest => (false, rest)
  | cs => (false, cs)

/-- An exponent part: nothing, or `e`, an optional sign and digits. -/
def exponent? : List Char → Option Int
  | [] => some 0
  | c :: rest =>
    if c = 'e' ∨ c = 'E' then
      let (neg, digits) := splitSign rest
      (natOfDigits? digits).map fun n => if neg then -(n : Int) else n
    else none

/-- A run of digits with at most one point, as the digits without it and the count behind it. -/
def mantissa? (cs : List Char) : Option (Nat × Nat) :=
  let whole := cs.takeWhile Char.isDigit
  match cs.dropWhile Char.isDigit with
  | [] => (natOfDigits? whole).map (·, 0)
  | '.' :: part => (natOfDigits? (whole ++ part)).map (·, part.length)
  | _ => none

/-- A finite decimal: sign, digits and power of ten. -/
def parse? (cs : List Char) : Option (Bool × Nat × Int) := do
  let (neg, body) := splitSign cs
  let isMark (c : Char) : Bool := c == 'e' || c == 'E'
  let (digits, places) ← mantissa? (body.takeWhile (!isMark ·))
  let power ← exponent? (body.dropWhile (!isMark ·))
  return (neg, digits, power - places)

/-- A text without the underscores inside it; none may stand at an end or beside another. -/
def dropUnderscores? (cs : List Char) : Option (List Char) :=
  if cs.head? = some '_' ∨ cs.getLast? = some '_' then none
  else if (cs.zip cs.tail).any fun (a, b) => a == '_' && b == '_' then none
  else some (cs.filter (· ≠ '_'))

end Decimal

/-- The double nearest to the number that the text spells. -/
def Double.ofText? (text : String) : Option Double :=
  match Decimal.parse? text.toList with
  | some (neg, digits, power) => some (.ofDecimal neg digits power)
  | none =>
    let (neg, word) := Decimal.splitSign text.toList
    let word := String.ofList (word.map Char.toLower)
    if word = "nan" then some .nan
    else if word = "inf" ∨ word = "infinity" then some (.infinity neg)
    else none

end RecordSql
