import RecordSql.Sql.Statement

/-!
# Connectors

A `Connector` runs statements and keeps a log, on a state of its own: a database, a session, or a script. A `Task` is
work done through a connector; when it fails, the state is the one that it has reached.
-/

namespace RecordSql

inductive LogLevel
  | debug
  | info
  deriving DecidableEq, Repr

def LogLevel.name : LogLevel → String
  | .debug => "DEBUG"
  | .info => "INFO"

structure LogLine where
  level : LogLevel
  text : String
  deriving DecidableEq, Repr

/-- Work on a state that may fail; the state is kept either way. -/
abbrev Task (σ : Type) := ExceptT Failure (StateM σ)

namespace Task

variable {σ α : Type}

/-- The outcome of a task as a value. -/
def attempt (task : Task σ α) : Task σ (Except Failure α) := fun s =>
  let (outcome, s') := task.run s
  (.ok outcome, s')

/-- Takes up an outcome. -/
def ofExcept (outcome : Except Failure α) : Task σ α := fun s => (outcome, s)

/-- Does the task, then the other whatever its outcome. The outcome is that of the task, unless the other fails. -/
def andThen (task : Task σ α) (last : Task σ Unit) : Task σ α := do
  let outcome ← attempt task
  last
  ofExcept outcome

end Task

/-- What runs statements and takes log lines, on a state. -/
structure Connector (σ : Type) where
  run : Statement → Task σ (List Row)
  log : LogLine → σ → σ

namespace Connector

variable {σ : Type}

/-- Writes a line into the log. -/
def note (c : Connector σ) (line : LogLine) : Task σ Unit := fun s => (.ok (), c.log line s)

end Connector

end RecordSql
