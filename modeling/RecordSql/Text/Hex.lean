/-!
# Hexadecimal digits

Bytes as pairs of hexadecimal digits. Digits are written in lower case and read in either.
-/

namespace RecordSql.Hex

/-- The digit of a number below 16. -/
def digit (n : Nat) : Char := if n < 10 then Char.ofNat (48 + n) else Char.ofNat (87 + n)

/-- The number of a digit. -/
def digit? (c : Char) : Option Nat :=
  if '0' ≤ c ∧ c ≤ '9' then some (c.toNat - 48)
  else if 'a' ≤ c ∧ c ≤ 'f' then some (c.toNat - 87)
  else if 'A' ≤ c ∧ c ≤ 'F' then some (c.toNat - 55)
  else none

/-- Writes bytes, two digits each. -/
def write : List UInt8 → List Char
  | [] => []
  | b :: rest => digit (b.toNat / 16) :: digit (b.toNat % 16) :: write rest

/-- Reads bytes, two digits each. -/
def read? : List Char → Option (List UInt8)
  | [] => some []
  | a :: b :: rest => do
    let high ← digit? a
    let low ← digit? b
    return UInt8.ofNat (16 * high + low) :: (← read? rest)
  | [_] => none

end RecordSql.Hex
