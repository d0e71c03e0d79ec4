import RecordSql.Sql.Name
import RecordSql.Sql.Param
import RecordSql.Value.Equality

/-!
# Fragments

A `Fragment` is statement text with a `?` for every value and the values themselves, in the order of their marks.
-/

namespace RecordSql

/-- Statement text and the parameters of its marks, from left to right. -/
structure Fragment where
  text : String
  params : List Param

namespace Fragment

/-- Text without values. -/
def plain (text : String) : Fragment := ⟨text, []⟩

/-- Text and the values of its marks. -/
def raw (text : String) (values : List Value) : Except Failure Fragment :=
  (Param.ofValues values).map (⟨text, ·⟩)

/-- The fragment as a value. -/
def toValue (f : Fragment) : Value :=
  .record none ⟨.fieldwise, "SqlFragment", ["text", "params"], true⟩
    [("text", .text f.text), ("params", .tuple (f.params.map Param.toValue))] []

/-- The texts with a separator between them, and all their parameters. -/
def join (separator : String) (fragments : List Fragment) : Fragment :=
  ⟨String.intercalate separator (fragments.map text), fragments.flatMap params⟩

end Fragment

/-- What a clause is set to: a fragment, or the reason why what was given is none. The reason counts only once a
statement is built. -/
abbrev Clause := Except Failure Fragment

/-- A clause from its text. -/
def Clause.ofValue (given : Value) : Clause :=
  match given.toText? with
  | some text => .ok (.plain text)
  | none => .error .wrongType

/-- As many marks as asked for, with commas between them. -/
def marks (count : Nat) : String := String.intercalate "," (List.replicate count "?")

/-- As many marks as a value says. A number of more than 64 bits counts nothing, and a text of more than `2 ^ 40` marks
is not made. -/
def marksFor (count : Value) : Except Failure String :=
  match count.toInt? with
  | none => .error .wrongType
  | some n =>
    if !fitsWord n then .error .outOfRange
    else if Int.pow 2 40 < n then .error .outOfMemory
    else .ok (marks n.toNat)

/-- Column names with commas between them, as they are. -/
def columnList (columns : List String) : Fragment := .plain (String.intercalate ", " columns)

end RecordSql
