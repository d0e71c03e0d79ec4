import RecordSql.Model.Basic

/-!
# From rows to records

A `Mapper` makes records of one model from rows. Columns are renamed first; columns that the model does not accept are
left out; required fields without a column are reported together, and a value that the model refuses is reported as
ill-typed.
-/

namespace RecordSql

/-- A model and the fields that columns of other names stand for. -/
structure Mapper where
  model : Model
  aliases : List (String × String)

namespace Mapper

/-- The row under field names. A later column replaces the value of an earlier one of the same field. -/
def rename (m : Mapper) (row : Row) : Row :=
  if m.aliases.isEmpty then row
  else row.foldl (fun out (k, v) => out.set ((m.aliases.lookup k).getD k) v) []

/-- The required fields that a row lacks, in alphabetical order. -/
def missing (m : Mapper) (row : Row) : List String :=
  ((m.model.required.filter fun name => !row.has name).eraseDups).mergeSort (· ≤ ·)

/-- The part of a row that the model accepts. -/
def acceptedPart (m : Mapper) (row : Row) : Row :=
  match m.model.accepted with
  | some names => row.filter fun (k, _) => names.contains k
  | none => row

/-- A failure of a constructor; one of type or value means that the row does not fit. -/
def refusal (m : Mapper) (e : Failure) : Failure :=
  if e.isIn .type || e.isIn .value then .illTyped m.model.name e.text else e

/-- The failure for data that a schema rejects: if nothing is wrong but absent fields, these. -/
def rejection (target : String) (problems : List Problem) : Failure :=
  if problems.all (·.complaint = .missing) then
    .missingFields target (problems.map Problem.place)
  else .rejectedFields target (problems.map Problem.place)

/-- The record of a row from a constructor that is called by name. A mapper knows the names that a class accepts and
requires; whatever else its constructor does is the class's own affair. -/
def mapThrough (m : Mapper) (construct : Row → Except Failure Value) (row : Row) : Except Failure Value :=
  let row := m.rename row
  let missing := m.missing row
  if !missing.isEmpty then .error (.missingFields m.model.name missing)
  else (construct (m.acceptedPart row)).mapError m.refusal

/-- The record of a row. -/
def mapOne (m : Mapper) (row : Row) : Except Failure Value :=
  match m.model with
  | .schematic schema => (schema.check (Dict.ofRow (m.rename row))).mapError (rejection schema.name)
  | model => m.mapThrough model.build row

/-- The records of rows, in order. -/
def mapMany (m : Mapper) (rows : List Row) : Except Failure (List Value) := rows.mapM m.mapOne

end Mapper

end RecordSql
