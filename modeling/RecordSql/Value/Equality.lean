import RecordSql.Value.Basic

/-!
# Equality of values and keys

Values are equal across numeric types: `1`, `1.0` and `true` are one key, and so are both zeros and `false`. Records,
streams, enumeration members without a base, and what is not a number are equal only if they are the same thing.
-/

namespace RecordSql

namespace Value

/-- The number that a truth value or an integer is. -/
def toInt? : Value → Option Int
  | .truth b => some (if b then 1 else 0)
  | .integer n => some n
  | .symbol _ .integer _ v => v.toInt?
  | _ => none

def toText? : Value → Option String
  | .text s => some s
  | .symbol _ .text _ v => v.toText?
  | _ => none

/-- Equality of numbers and texts, enumeration members with such a value included. -/
def scalarEq (a b : Value) : Bool :=
  match a.toInt?, b.toInt? with
  | some m, some n => m == n
  | some m, none => match b with
    | .real y => y.toInt? == some m
    | _ => false
  | none, some n => match a with
    | .real x => x.toInt? == some n
    | _ => false
  | none, none => match a, b with
    | .real x, .real y => x.numEq y || x.sameNan y
    | _, _ => match a.toText?, b.toText? with
      | some s, some t => s == t
      | _, _ => false

/-- Whether two things are known to be the same. -/
def sameThing (i j : Identity) : Bool := i.isSome && i == j

mutual

/-- Equality of values. -/
def eqv : Value → Value → Bool
  | .null, .null => true
  | .default, .default => true
  | .bytes _ xs, .bytes _ ys => xs == ys
  | .list xs, .list ys => eqvAll xs ys
  | .tuple xs, .tuple ys => eqvAll xs ys
  | .set xs, .set ys => xs.length == ys.length && eqvEach xs ys
  | .dict i xs, .dict j ys => sameThing i j || (xs.length == ys.length && eqvEntries xs ys)
  | .param k x, .param l y => k == l && eqv x y
  | .record i _ _ _, .record j _ _ _ => sameThing i j
  | .stream i _, .stream j _ => sameThing i j
  | .symbol i .plain _ _, .symbol j .plain _ _ => sameThing i j
  | a, b => scalarEq a b

def eqvAll : List Value → List Value → Bool
  | [], [] => true
  | x :: xs, y :: ys => eqv x y && eqvAll xs ys
  | _, _ => false

def eqvEach : List Value → List Value → Bool
  | [], _ => true
  | x :: xs, ys => ys.any (eqv x ·) && eqvEach xs ys

def eqvEntries : List (Value × Value) → List (Value × Value) → Bool
  | [], _ => true
  | (k, x) :: xs, ys => ys.any (fun (l, y) => eqv k l && eqv x y) && eqvEntries xs ys

end

/-- Whether values of the kind can change, so that none of them can be a key. -/
def isMutable : Value → Bool
  | .list _ | .set _ | .dict _ _ | .bytes true _ => true
  | .record _ cls _ _ => cls.style = .schematic || (cls.style = .fieldwise && !cls.frozen)
  | _ => false

end Value

/-- Entries under keys, in order; no two keys are equal. -/
abbrev Dict := List (Value × Value)

namespace Dict

/-- The value under a key. -/
def get? (d : Dict) (key : Value) : Option Value := (d.find? (·.1.eqv key)).map (·.2)

/-- The value under a column name. -/
def column? (d : Dict) (name : String) : Option Value := d.get? (.text name)

/-- Sets the value under a key: in its place if the key occurs, else at the end. -/
def set : Dict → Value → Value → Dict
  | [], key, v => [(key, v)]
  | (k, w) :: rest, key, v => if k.eqv key then (k, v) :: rest else (k, w) :: Dict.set rest key v

def ofEntries (entries : List (Value × Value)) : Dict :=
  entries.foldl (fun d (k, v) => d.set k v) []

def ofRow (row : Row) : Dict := row.map fun (k, v) => (.text k, v)

end Dict

/-- A row as a value. -/
def Row.toValue (row : Row) : Value := .dict none (Dict.ofRow row)

end RecordSql
