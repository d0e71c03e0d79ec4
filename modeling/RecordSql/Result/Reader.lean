import RecordSql.Model.Mapper

/-!
# Readers

A reader makes a record from a row. The readers here copy the row, take some of its columns, give a bare cell, make a
record of a model, or refuse.
-/

namespace RecordSql

/-- How a record is made from a row. -/
structure Reader where
  run : Row → Except Failure Value
  /-- The column whose cell is the record itself, if there is one: what becomes of the record becomes of the row. -/
  source : Option String

namespace Reader

/-- A reader that makes records anew. -/
def ofFunction (f : Row → Except Failure Value) : Reader := ⟨f, none⟩

/-- The row itself as a dictionary. -/
def copy : Reader := ofFunction fun row => .ok row.toValue

/-- The value of a column that has to be there. -/
def cellOf (column : String) (row : Row) : Except Failure Value :=
  match row.get? column with
  | some v => .ok v
  | none => .error (.absentColumn column)

/-- The cell of a column that has to be there. -/
def cell (column : String) : Reader := ⟨cellOf column, some column⟩

/-- A dictionary of the columns listed, all of which have to be there. -/
def columns (names : List String) : Reader := ofFunction fun row => do
  let entries ← names.mapM fun c => (cellOf c row).map (c, ·)
  return (Row.ofEntries entries).toValue

/-- A record of a model. -/
def model (m : Mapper) : Reader := ofFunction m.mapOne

/-- Refuses every row. -/
def refuse (e : Failure) : Reader := ofFunction fun _ => .error e

/-- Refuses the rows with the given value in a column, and copies the others. A column that a row lacks is null. -/
def refuseWhere (column : String) (value : Value) (e : Failure) : Reader := ofFunction fun row =>
  if ((row.get? column).getD .null).eqv value then .error e else copy.run row

/-- The rows with what has become of the records that were made of them. -/
def putBack (r : Reader) (rows : List Row) (records : List Value) : List Row :=
  match r.source with
  | none => rows
  | some column => rows.zipWith (fun row record => row.set column record) records

end Reader

end RecordSql
