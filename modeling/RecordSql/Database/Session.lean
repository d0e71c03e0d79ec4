import RecordSql.Database.Engine
import RecordSql.Sql.Name

/-!
# Sessions

A `Session` holds one connection until it is closed. It is idle, in a transaction, or closed; in a transaction it
keeps the names of the savepoints that were set, the latest last. Closing rolls an open transaction back, and gives
the connection back even if that fails.
-/

namespace RecordSql

/-- Where a session is in its life. -/
inductive Phase
  | idle
  | active
  | closed
  deriving DecidableEq, Repr

def Phase.name : Phase → String
  | .idle => "idle"
  | .active => "active"
  | .closed => "closed"

structure Session (κ : Type) where
  connection : κ
  phase : Phase
  savepoints : List String

/-- A session, and the engine that its connection belongs to. -/
structure SessionState (ω κ : Type) where
  session : Session κ
  engine : EngineState ω κ

namespace Session

variable {ω κ α : Type}

/-- Opens a session on a connection of the pool. -/
def start (e : Engine ω κ) : Task (EngineState ω κ) (Session κ) := do
  return ⟨← e.acquire, .idle, []⟩

/-- Does a task on the engine. -/
def inEngine (task : Task (EngineState ω κ) α) : Task (SessionState ω κ) α := fun s =>
  let (outcome, engine) := task.run s.engine
  (outcome, { s with engine := engine })

/-- Does a task on the database. -/
def inDatabase (task : Task ω α) : Task (SessionState ω κ) α := inEngine (Engine.inDatabase task)

/-- Changes the session itself. -/
def update (f : Session κ → Session κ) : Task (SessionState ω κ) Unit :=
  modify fun s => { s with session := f s.session }

/-- Refuses an action of a closed session. -/
def requireOpen (action : String) : Task (SessionState ω κ) Unit := do
  if (← get).session.phase = .closed then throw (.transactionState "closed" action)

/-- Refuses an action outside a transaction. -/
def requireActive (action : String) : Task (SessionState ω κ) Unit := do
  requireOpen action
  if (← get).session.phase = .idle then throw (.transactionState "idle" action)

/-- Sends a command that has no parameters. -/
def command (e : Engine ω κ) (sql : String) : Task (SessionState ω κ) Unit := do
  let c := (← get).session.connection
  discard (inDatabase (e.adapter.execute c sql []))

/-- Logs what has been done. -/
def note (e : Engine ω κ) (text : String) : Task (SessionState ω κ) Unit :=
  inDatabase (e.adapter.note ⟨.debug, text⟩)

/-- Runs a statement on the connection of the session. Outside a transaction it is committed at once. -/
def run (e : Engine ω κ) (s : Statement) : Task (SessionState ω κ) (List Row) := do
  requireOpen "execute"
  let c := (← get).session.connection
  let rows ← inDatabase (e.adapter.send e.settings.echo c s)
  if (← get).session.phase = .idle then inDatabase (e.adapter.commit c)
  return rows

/-- Starts a transaction. -/
def begin (e : Engine ω κ) : Task (SessionState ω κ) Unit := do
  requireOpen "begin"
  if (← get).session.phase = .active then throw (.transactionState "active" "begin")
  command e "BEGIN"
  update fun s => { s with phase := .active }
  note e "transaction started"

/-- Commits the transaction. -/
def commit (e : Engine ω κ) : Task (SessionState ω κ) Unit := do
  requireActive "commit"
  command e "COMMIT"
  update fun s => { s with phase := .idle, savepoints := [] }
  note e "transaction committed"

/-- Rolls the transaction back. -/
def rollback (e : Engine ω κ) : Task (SessionState ω κ) Unit := do
  requireActive "rollback"
  command e "ROLLBACK"
  update fun s => { s with phase := .idle, savepoints := [] }
  note e "transaction rolled back"

/-- Sets a savepoint in the transaction. -/
def savepoint (e : Engine ω κ) (name : String) : Task (SessionState ω κ) Unit := do
  requireActive "savepoint"
  command e ("SAVEPOINT " ++ quoteName name)
  update fun s => { s with savepoints := s.savepoints ++ [name] }
  note e ("savepoint " ++ name ++ " created")

/-- The names up to the first that is the given one. -/
def upTo (name : String) : List String → List String
  | [] => []
  | s :: rest => if s = name then [s] else s :: upTo name rest

/-- Undoes what was done after a savepoint. The transaction goes on. -/
def rollbackTo (e : Engine ω κ) (name : String) : Task (SessionState ω κ) Unit := do
  requireActive "rollback to savepoint"
  unless (← get).session.savepoints.contains name do
    throw (.transactionState "active" ("roll back to unknown savepoint '" ++ name ++ "'"))
  command e ("ROLLBACK TO SAVEPOINT " ++ quoteName name)
  update fun s => { s with savepoints := upTo name s.savepoints }
  note e ("rolled back to savepoint " ++ name)

/-- Ends the session: its connection goes back to the pool. -/
def finish : Task (SessionState ω κ) Unit := do
  update fun s => { s with phase := .closed }
  let c := (← get).session.connection
  inEngine (Engine.release c)

/-- Closes the session. An open transaction is rolled back. -/
def close (e : Engine ω κ) : Task (SessionState ω κ) Unit := do
  match (← get).session.phase with
  | .closed => return
  | .active => Task.andThen (rollback e) finish
  | .idle => finish

/-- Leaves a block of work: an open transaction is committed, or rolled back if the block failed. Then the session is
closed. -/
def leave (e : Engine ω κ) (failed : Bool) : Task (SessionState ω κ) Unit := do
  match (← get).session.phase with
  | .closed => return
  | .active => Task.andThen (if failed then rollback e else commit e) (close e)
  | .idle => close e

/-- The session as what runs the statements of queries. -/
def connector (e : Engine ω κ) : Connector (SessionState ω κ) where
  run := run e
  log line s :=
    { s with engine := { s.engine with database := e.adapter.log line s.engine.database } }

end Session

end RecordSql
