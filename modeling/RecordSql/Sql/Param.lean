import RecordSql.Failure

/-!
# Bound parameters

`Param.ofValue` turns a value into a tagged parameter. Numbers, texts and truth values are bound as they are, a member
of an enumeration by its name, bytes as the text that they encode, and the absent value as NULL. Integers of more than
64 bits, bytes that encode no text, collections and records cannot be bound.
-/

namespace RecordSql

/-- A bound value with its tag. -/
structure Param where
  kind : ParamKind
  value : Value

instance : Inhabited Param := ⟨⟨.null, .null⟩⟩

/-- The integers of 64 bits with a sign. -/
def fitsWord (n : Int) : Bool := decide (-Int.pow 2 63 ≤ n) && decide (n < Int.pow 2 63)

namespace Param

/-- The parameter that stands for a value; what is a parameter already stays as it is. -/
def ofValue : Value → Except Failure Param
  | .param kind v => .ok ⟨kind, v⟩
  | .null => .ok ⟨.null, .null⟩
  | .truth b => .ok ⟨.truth, .truth b⟩
  | .symbol _ _ name _ => .ok ⟨.text, .text name⟩
  | .integer n =>
    if fitsWord n then .ok ⟨.integer, .integer n⟩
    else .error (.unsupportedValue "int" (some "integer out of 64-bit range"))
  | .real x => .ok ⟨.real, .real x⟩
  | .text s => .ok ⟨.text, .text s⟩
  | .bytes mutable data =>
    match String.fromUTF8? ⟨data.toArray⟩ with
    | some s => .ok ⟨.text, .text s⟩
    | none =>
      .error (.unsupportedValue (Value.bytes mutable data).typeName
        (some "bytes are not valid UTF-8"))
  | v => .error (.unsupportedValue v.typeName none)

/-- The parameters that stand for values, in order; the first value that cannot be bound decides. -/
def ofValues (values : List Value) : Except Failure (List Param) := values.mapM ofValue

/-- The parameter as a value. -/
def toValue (p : Param) : Value := .param p.kind p.value

end Param

end RecordSql
