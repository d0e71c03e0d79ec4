/-!
# Double precision numbers

A `Double` is its sixty-four bits, so that equality is decidable and every statement about it is one about natural
numbers. `Double.read` says what the bits stand for; `Double.ofRatio` is the nearest double of a non-negative ratio, a
tie going to the even significand.
-/

namespace RecordSql

/-- A double precision number, as its interchange word. -/
structure Double where
  bits : UInt64
  deriving DecidableEq, Repr

namespace Double

/-- What a word stands for: `finite neg m e` is `m * 2 ^ e`, negated if `neg`. -/
inductive Reading
  | nan
  | infinite (neg : Bool)
  | finite (neg : Bool) (m : Nat) (e : Int)
  deriving DecidableEq, Repr

/-- The three fields of the word, decoded. -/
def read (x : Double) : Reading :=
  let word := x.bits.toNat
  let neg : Bool := decide (Nat.pow 2 63 ≤ word)
  let field : Nat := word / Nat.pow 2 52 % Nat.pow 2 11
  let fraction : Nat := word % Nat.pow 2 52
  if field = 2047 then
    if fraction = 0 then .infinite neg else .nan
  else if field = 0 then .finite neg fraction (-1074)
  else .finite neg (Nat.pow 2 52 + fraction) ((field : Int) - 1075)

/-- The word with the given sign and magnitude field. -/
def ofMagnitude (neg : Bool) (magnitude : Nat) : Double :=
  ⟨UInt64.ofNat (magnitude + if neg then Nat.pow 2 63 else 0)⟩

/-- The magnitude field of an infinity. -/
def infinityField : Nat := 2047 * Nat.pow 2 52

def infinity (neg : Bool) : Double := ofMagnitude neg infinityField

/-- What is not a number, of the kind that calculations give. -/
def nan : Double := ofMagnitude false (infinityField + Nat.pow 2 51)

/-- What is not a number, told apart from others by the number it is given. -/
def nanOf (n : Nat) : Double := ofMagnitude false (infinityField + Nat.pow 2 51 + n)

def zero (neg : Bool) : Double := ofMagnitude neg 0

/-- `num / den` to the nearest integer, a tie to the even one. -/
def divEven (num den : Nat) : Nat :=
  let q := num / den
  let r := num % den
  if den < 2 * r ∨ (2 * r = den ∧ q % 2 = 1) then q + 1 else q

/-- `num / den * 2 ^ (-e)` as a ratio. -/
def scaleRatio (num den : Nat) (e : Int) : Nat × Nat :=
  if e < 0 then (num * Nat.pow 2 e.natAbs, den) else (num, den * Nat.pow 2 e.natAbs)

/-- The double nearest to `num / den`. The quotient of the two binary lengths is off by at most one, so one look at
the scaled quotient settles the exponent. -/
def ofRatio (neg : Bool) (num den : Nat) : Double :=
  if num = 0 then zero neg
  else
    let guess : Int := max ((num.log2 : Int) - den.log2 - 53) (-1074)
    let (n, d) := scaleRatio num den guess
    let e := if n / d < Nat.pow 2 53 then guess else guess + 1
    let (n, d) := scaleRatio num den e
    let m := divEven n d
    let magnitude :=
      if m < Nat.pow 2 52 then m else (e + 1075).toNat * Nat.pow 2 52 + (m - Nat.pow 2 52)
    ofMagnitude neg (min magnitude infinityField)

/-- The double nearest to an integer; too large an integer has none. -/
def ofInt? (n : Int) : Option Double :=
  let x := ofRatio (decide (n < 0)) n.natAbs 1
  match x.read with
  | .infinite _ => none
  | _ => some x

/-- The double nearest to `digits * 10 ^ exponent`. Far outside the range the power is not computed. -/
def ofDecimal (neg : Bool) (digits : Nat) (exponent : Int) : Double :=
  let top := exponent + digits.log2 / 3
  if digits = 0 ∨ top < -400 then zero neg
  else if 400 < exponent then infinity neg
  else if exponent < 0 then ofRatio neg digits (Nat.pow 10 exponent.natAbs)
  else ofRatio neg (digits * Nat.pow 10 exponent.natAbs) 1

def isNan (x : Double) : Bool := x.read == .nan

def isZero (x : Double) : Bool := x.bits = 0 || x.bits = (zero true).bits

/-- Numeric equality: both zeros are equal, and what is not a number equals nothing. -/
def numEq (x y : Double) : Bool := !x.isNan && (x.bits == y.bits || (x.isZero && y.isZero))

/-- Whether two doubles are not numbers and are known to be the same. -/
def sameNan (x y : Double) : Bool := x.isNan && x.bits == y.bits && x.bits != nan.bits

/-- The integer that the double equals, if there is one. -/
def toInt? (x : Double) : Option Int :=
  match x.read with
  | .finite neg m e =>
    let whole : Option Nat :=
      if 0 ≤ e then some (m * Nat.pow 2 e.natAbs)
      else if m % Nat.pow 2 e.natAbs = 0 then some (m / Nat.pow 2 e.natAbs) else none
    whole.map fun n => if neg then -(n : Int) else n
  | _ => none

/-- Neither negative nor `nan`; a zero of either sign counts. -/
def isNonneg (x : Double) : Bool :=
  match x.read with
  | .nan => false
  | .infinite neg => !neg
  | .finite neg m _ => !neg || m == 0

end Double

end RecordSql
