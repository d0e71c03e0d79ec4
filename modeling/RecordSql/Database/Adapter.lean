import RecordSql.Connector
import RecordSql.Database.Settings

/-!
# Adapters

An `Adapter` is the database as the rest of the library sees it: connections that take statements, on a state of its
own. It also knows which failures are refusals of a statement by the database. A `Cursor` is what a statement gives
back; its rows have still to be fetched.
-/

namespace RecordSql

/-- Fetched rows, in order: as lists of values, or with their column names. -/
inductive Fetched
  | positional (rows : List (List Value))
  | named (rows : List Row)

/-- The reply to a statement: the names of its columns, if it has any, and what fetching its rows gives. -/
structure Cursor where
  columns : Option (List String)
  fetched : Except Failure Fetched

namespace Cursor

/-- The reply of a statement that gives no rows. -/
def silent : Cursor := ⟨none, .ok (.named [])⟩

/-- A row from column names and as many values. -/
def rowOf (columns : List String) (values : List Value) : Except Failure Row :=
  if values.length < columns.length then .error (.lengthMismatch true)
  else if columns.length < values.length then .error (.lengthMismatch false)
  else .ok (Row.ofEntries (columns.zip values))

/-- The rows of a reply; they are fetched only if it has columns. -/
def rows (c : Cursor) : Except Failure (List Row) :=
  match c.columns with
  | none => .ok []
  | some columns => do
    match ← c.fetched with
    | .named rows => return rows
    | .positional rows => rows.mapM (rowOf columns)

end Cursor

/-- A database on a state `ω`, with connections `κ`. -/
structure Adapter (ω κ : Type) where
  /-- The name of the style in which it takes the marks of statements. -/
  style : String
  /-- Opens as many connections as the settings say. -/
  openAll : Settings → Task ω (List κ)
  execute : κ → String → List Value → Task ω Cursor
  commit : κ → Task ω Unit
  rollback : κ → Task ω Unit
  close : κ → Task ω Unit
  /-- The code and the message of a failure that is a refusal by the database. -/
  describe : Failure → Option (String × String)
  log : LogLine → ω → ω

namespace Adapter

variable {ω κ : Type}

/-- Writes a line into the log. -/
def note (a : Adapter ω κ) (line : LogLine) : Task ω Unit := fun w => (.ok (), a.log line w)

/-- Closes connections, in order. -/
def closeAll (a : Adapter ω κ) (connections : List κ) : Task ω Unit := connections.forM a.close

/-- The code and the message of a failure that is told in the library's own words. What ends the program never is. -/
def recognised? (a : Adapter ω κ) (e : Failure) : Option (String × String) :=
  if e.isIn .interrupt then none else a.describe e

/-- Fails as a caller is to see it: a refusal by the database in the library's own words, any other as it is. -/
def refuse {α : Type} (a : Adapter ω κ) (e : Failure) : Task ω α :=
  match a.recognised? e with
  | none => throw e
  | some (code, message) => do
    a.note ⟨.debug, "query failed [" ++ code ++ "]: " ++ message⟩
    throw (.queryFailed code message)

/-- Runs a statement on a connection. The log has the statement as it is sent, with its values. -/
def send (a : Adapter ω κ) (echo : Bool) (connection : κ) (s : Statement) :
    Task ω (List Row) := do
  let style ← Task.ofExcept (Style.ofName? a.style)
  let sql ← Task.ofExcept (styled s.sql style)
  let values := s.params.map (·.value)
  a.note ⟨if echo then .info else .debug, sql ++ " " ++ (Value.tuple values).literal⟩
  match ← Task.attempt (do Task.ofExcept (← a.execute connection sql values).rows) with
  | .ok rows => return rows
  | .error e => a.refuse e

end Adapter

end RecordSql
