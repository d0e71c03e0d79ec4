import RecordSql.Database.Backend
import RecordSql.Database.Driver

/-!
# SQLite

Connections to SQLite check foreign keys and give rows that know their columns. Any error of the driver while they are
opened means that the database cannot be used.
-/

namespace RecordSql.Sqlite

variable {ω κ : Type}

/-- Opens a connection and makes it ready for use. -/
def connect (d : Driver ω κ) (s : Settings) : Task ω κ := do
  let c ← d.connect s.database [("timeout", s.poolTimeout)]
  d.setOption c "row_factory" "Row"
  discard (d.execute c "PRAGMA foreign_keys=ON" none)
  return c

def unreachable (s : Settings) : Failure → Option Failure
  | .driver e =>
    some (.connectionFailed ("Cannot open SQLite database '" ++ s.database ++ "': " ++ e.text))
  | _ => none

/-- The code of an error is the name of the driver's result code. -/
def describe : Failure → Option (String × String)
  | .driver e => some (e.codeOrName, e.text)
  | _ => none

def adapter (d : Driver ω κ) : Adapter ω κ where
  style := Backend.sqlite.style.name
  openAll s := do d.openAll (connect d s) (unreachable s) (← Task.ofExcept s.connections)
  execute c sql values := d.execute c sql (some values)
  commit := d.commit
  rollback := d.rollback
  close := d.close
  describe := describe
  log := d.log

end RecordSql.Sqlite
