import RecordSql.Number.Double

/-!
# The fewest digits that read back

`Shortest.digits` gives, for a finite positive number `m * 2 ^ e`, a decimal `d * 10 ^ k` that rounds to it and has as
few digits as any that does: for 1, 2, … 17 digits the two neighbours of the number on that decimal grid are tested,
in exact arithmetic, against the interval of reals that round to it. Of two hits the nearer is taken, of two equally
near the even one. `Layout` says how such digits are written down.
-/

namespace RecordSql

namespace Shortest

/-- The reals that round to a number, scaled by four times the unit of its last place: the number itself and its two
ends, as multiples of `unitNum / unitDen`, and whether the ends belong to it. -/
structure Interval where
  low : Nat
  mid : Nat
  high : Nat
  unitNum : Nat
  unitDen : Nat
  closed : Bool

/-- Below a power of two the gap to the next number is half as wide. -/
def interval (m : Nat) (e : Int) : Interval where
  low := if m = Nat.pow 2 52 ∧ e ≠ -1074 then 4 * m - 1 else 4 * m - 2
  mid := 4 * m
  high := 4 * m + 2
  unitNum := if e < 0 then 1 else Nat.pow 2 e.natAbs
  unitDen := if e < 0 then 4 * Nat.pow 2 e.natAbs else 4
  closed := m % 2 = 0

/-- `10 ^ k` as a ratio. -/
def powTen (k : Int) : Nat × Nat :=
  if k < 0 then (1, Nat.pow 10 k.natAbs) else (Nat.pow 10 k.natAbs, 1)

/-- `d * 10 ^ k` in the units of the interval, over the given common denominator. -/
def onGrid (i : Interval) (k : Int) (d : Nat) : Nat := d * (powTen k).1 * i.unitDen

/-- A multiple of the interval's unit over the same common denominator. -/
def inUnits (i : Interval) (k : Int) (x : Nat) : Nat := x * i.unitNum * (powTen k).2

/-- Whether `d * 10 ^ k` rounds to the number. -/
def hits (i : Interval) (k : Int) (d : Nat) : Bool :=
  let x := onGrid i k d
  if i.closed then
    decide (inUnits i k i.low ≤ x) && decide (x ≤ inUnits i k i.high)
  else decide (inUnits i k i.low < x) && decide (x < inUnits i k i.high)

/-- The better of the number's two neighbours on the grid `10 ^ k`, if one rounds to it. -/
def onGrid? (i : Interval) (k : Int) : Option Nat :=
  let x := inUnits i k i.mid
  let below := x / onGrid i k 1
  let lowHit := below ≠ 0 ∧ hits i k below
  let highHit := hits i k (below + 1)
  if lowHit then
    let downward := x - onGrid i k below
    let upward := onGrid i k (below + 1) - x
    if highHit ∧ (upward < downward ∨ (upward = downward ∧ below % 2 = 1)) then some (below + 1)
    else some below
  else if highHit then some (below + 1)
  else none

/-- The power of ten of the leading digit of `num / den`. -/
def leadingPower (num den : Nat) : Int :=
  let guess : Int := ((num.log2 : Int) - den.log2 - 1) * 30103 / 100000
  let reached (k : Int) : Bool := decide ((powTen k).1 * den ≤ num * (powTen k).2)
  if reached (guess + 2) then guess + 2
  else if reached (guess + 1) then guess + 1
  else if reached guess then guess
  else guess - 1

/-- Tests the grids from `k` downwards; seventeen digits always suffice. -/
def search (i : Interval) : Nat → Int → Nat × Int
  | 0, k => (inUnits i k i.mid / onGrid i k 1, k)
  | steps + 1, k =>
    match onGrid? i k with
    | some d => (d, k)
    | none => search i steps (k - 1)

/-- `d` and `k` such that `d * 10 ^ k` is the shortest decimal of `m * 2 ^ e`. -/
def digits (m : Nat) (e : Int) : Nat × Int :=
  let i := interval m e
  search i 17 (leadingPower (i.mid * i.unitNum) i.unitDen)

end Shortest

/-- How the digits of a number are laid out. -/
structure Layout where
  /-- The least power of ten of a leading digit that is written without an exponent. -/
  least : Int
  /-- The first power of ten of a leading digit that is written with one. -/
  first : Int
  /-- What stands before an exponent. -/
  mark : String
  /-- The least count of digits of an exponent; its sign is always written. -/
  exponentWidth : Nat
  /-- What ends a number that has no digits behind the point and no exponent. -/
  whole : String
  nan : String
  infinity : String

namespace Layout

/-- The digits, with the point before the position given. -/
def positional (l : Layout) (ds : List Char) (point : Int) : List Char :=
  if point ≤ 0 then '0' :: '.' :: (List.replicate point.natAbs '0' ++ ds)
  else if (ds.length : Int) ≤ point then
    ds ++ List.replicate (point.natAbs - ds.length) '0' ++ l.whole.toList
  else ds.take point.natAbs ++ '.' :: ds.drop point.natAbs

/-- The digits as one digit, a point and the rest, with an exponent. -/
def exponential (l : Layout) (ds : List Char) (power : Int) : List Char :=
  let size := (toString power.natAbs).toList
  let padded := List.replicate (l.exponentWidth - size.length) '0' ++ size
  ds.take 1 ++ (if ds.length ≤ 1 then [] else '.' :: ds.drop 1) ++ l.mark.toList
    ++ (if power < 0 then '-' else '+') :: padded

/-- The digits of a count without the zeros at its end. -/
def significant (d : Nat) : List Char :=
  ((toString d).toList.reverse.dropWhile (· == '0')).reverse

/-- The text of a double: its shortest digits, laid out. -/
def render (l : Layout) (x : Double) : String :=
  match x.read with
  | .nan => l.nan
  | .infinite neg => (if neg then "-" else "") ++ l.infinity
  | .finite neg m e =>
    let sign := if neg then "-" else ""
    if m = 0 then sign ++ "0" ++ l.whole
    else
      let (d, k) := Shortest.digits m e
      let all := (toString d).toList
      let power := k + all.length - 1
      let ds := significant d
      sign ++ String.ofList
        (if l.least ≤ power ∧ power < l.first then l.positional ds (power + 1)
         else l.exponential ds power)

end Layout

end RecordSql
