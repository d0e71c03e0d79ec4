import RecordSql.Database.Backend
import RecordSql.Database.Driver

/-!
# PostgreSQL

Connections to PostgreSQL commit each statement by itself unless a transaction was begun, and give rows by column name.
Only an error about the operation of the database means that it cannot be reached.
-/

namespace RecordSql.Postgresql

variable {ω κ : Type}

/-- The connection string: the settings that are given, and the database. -/
def target (s : Settings) : String :=
  let part (name : String) (value : Option String) : List String :=
    value.toList.map fun v => name ++ "=" ++ v
  String.intercalate " " (part "host" s.host ++ part "port" (s.port.map Value.display)
    ++ part "user" s.user ++ part "password" s.password ++ part "dbname" (some s.database))

/-- The options that every connection has. -/
def ownOptions (s : Settings) : Row :=
  [("autocommit", .truth true), ("row_factory", .text "dict_row"),
    ("connect_timeout", s.poolTimeout)]

/-- Opens a connection with the extra options of the settings. None of them may be among its own. -/
def connect (d : Driver ω κ) (s : Settings) : Task ω κ := do
  match s.extra.find? fun (name, _) => (ownOptions s).has name with
  | some (name, _) => throw (.badCall ("option given twice: " ++ name))
  | none => d.connect (target s) (ownOptions s ++ s.extra)

def unreachable (s : Settings) : Failure → Option Failure
  | .driver e =>
    if e.operational then
      some (.connectionFailed ("Cannot connect to PostgreSQL database '" ++ s.database ++ "': " ++ e.text))
    else none
  | _ => none

/-- The code of an error is its SQL state. -/
def describe : Failure → Option (String × String)
  | .driver e => some (e.codeOrName, e.primaryOrText)
  | _ => none

def adapter (d : Driver ω κ) : Adapter ω κ where
  style := Backend.postgresql.style.name
  openAll s := do d.openAll (connect d s) (unreachable s) (← Task.ofExcept s.connections)
  execute c sql values := d.execute c sql (some values)
  commit := d.commit
  rollback := d.rollback
  close := d.close
  describe := describe
  log := d.log

end RecordSql.Postgresql
