import RecordSql.Value.Literal

/-!
# Answers

The records that an operation on a table gives, with the rows that they were made of. The rows can be given up; the
records stay.
-/

namespace RecordSql

structure Answer where
  records : List Value
  rows : List Row

namespace Answer

/-- The first record, or null. -/
def first (a : Answer) : Value := a.records.head?.getD .null

/-- The number of records. -/
def size (a : Answer) : Nat := a.records.length

/-- The answer without its rows. -/
def dispose (a : Answer) : Answer := { a with rows := [] }

/-- The answer as a value: the sequence of its records. -/
def toValue (a : Answer) : Value :=
  .record none ⟨.sequence, "RepositoryResult", ["models"], false⟩ [("models", .list a.records)] []

/-- The answer in a few words. -/
def describe (a : Answer) : String := a.toValue.literal

end Answer

end RecordSql
