import RecordSql.Database.Adapter
import RecordSql.Database.Pool

/-!
# Engines

An `Engine` runs statements on connections of a pool, one connection and one transaction for each statement. The pool
is opened when a connection is first needed, and again when one is needed after it was closed.
-/

namespace RecordSql

structure Engine (ω κ : Type) where
  settings : Settings
  adapter : Adapter ω κ

/-- The state of an engine: the pool, if it is open, and the database behind it. -/
structure EngineState (ω κ : Type) where
  pool : Option (Pool κ)
  database : ω

namespace Engine

variable {ω κ α : Type}

/-- Does a task on the database. -/
def inDatabase (task : Task ω α) : Task (EngineState ω κ) α := fun s =>
  let (outcome, database) := task.run s.database
  (outcome, { s with database := database })

def setPool (pool : Option (Pool κ)) : Task (EngineState ω κ) Unit :=
  modify fun s => { s with pool := pool }

/-- The pool; it is opened if it is not open. -/
def openPool (e : Engine ω κ) : Task (EngineState ω κ) (Pool κ) := do
  match (← get).pool with
  | some pool => return pool
  | none => do
    let pool ← inDatabase (e.adapter.openAll e.settings)
    setPool (some pool)
    return pool

/-- Takes a connection out of the pool. -/
def acquire (e : Engine ω κ) : Task (EngineState ω κ) κ := do
  let (c, rest) ← Task.ofExcept (← e.openPool).take
  setPool (some rest)
  return c

/-- Gives a connection back. There has to be a pool. -/
def release (c : κ) : Task (EngineState ω κ) Unit := do
  match (← get).pool with
  | some pool => setPool (some (pool.put c))
  | none => throw .absentAttribute

/-- Does a task with a connection of the pool, and gives the connection back whatever happens. -/
def withConnection (e : Engine ω κ) (task : κ → Task (EngineState ω κ) α) :
    Task (EngineState ω κ) α := do
  let c ← e.acquire
  Task.andThen (task c) (release c)

/-- Closes the free connections, and the pool. -/
def closePool (e : Engine ω κ) : Task (EngineState ω κ) Unit := do
  match (← get).pool with
  | some pool => do
    inDatabase (e.adapter.closeAll pool)
    setPool none
  | none => return

/-- Runs a statement on a connection and ends its transaction: it is rolled back if the statement fails, unless the
program is to end. -/
def transact (e : Engine ω κ) (s : Statement) (c : κ) : Task ω (List Row) := do
  match ← Task.attempt (e.adapter.send e.settings.echo c s) with
  | .ok rows => do
    e.adapter.commit c
    return rows
  | .error failure => do
    if !failure.isIn .interrupt then e.adapter.rollback c
    throw failure

/-- Runs a statement on a connection of the pool. -/
def run (e : Engine ω κ) (s : Statement) : Task (EngineState ω κ) (List Row) :=
  e.withConnection fun c => inDatabase (e.transact s c)

/-- The engine as what runs the statements of queries. -/
def connector (e : Engine ω κ) : Connector (EngineState ω κ) where
  run := e.run
  log line s := { s with database := e.adapter.log line s.database }

end Engine

end RecordSql
