import RecordSql.Sql.Mark

/-!
# Backends

The databases that settings can name by their driver.
-/

namespace RecordSql

inductive Backend
  | sqlite
  | postgresql
  deriving DecidableEq, Repr

namespace Backend

def name : Backend → String
  | .sqlite => "sqlite"
  | .postgresql => "postgresql"

/-- The style in which the driver of a backend wants the marks of a statement. -/
def style : Backend → Style
  | .sqlite => .question
  | .postgresql => .percent

/-- The backend that a driver's name means, in upper or lower case. No character beyond ASCII has a letter of these
names as its lower case. -/
def ofDriver (driver : String) : Except Failure Backend :=
  match [sqlite, postgresql].find? (·.name = driver.map Char.toLower) with
  | some b => .ok b
  | none => .error (.unsupportedDriver driver)

end Backend

end RecordSql
