import RecordSql.Database.Adapter

/-!
# Drivers

A `Driver` is the client library of one kind of database: it makes connections, on a state of its own. An adapter is
made of a driver by saying how its connections are opened and how its errors are read.
-/

namespace RecordSql

structure Driver (ω κ : Type) where
  /-- Opens a connection to a target, with options by name. -/
  connect : String → Row → Task ω κ
  setOption : κ → String → String → Task ω Unit
  /-- Sends a statement, with values or without any. -/
  execute : κ → String → Option (List Value) → Task ω Cursor
  commit : κ → Task ω Unit
  rollback : κ → Task ω Unit
  close : κ → Task ω Unit
  log : LogLine → ω → ω

namespace Driver

variable {ω κ : Type}

/-- Opens connections one after the other, up to a number or the first failure. Gives those that were opened. -/
def openEach (one : Task ω κ) : Nat → Task ω (List κ × Option Failure)
  | 0 => return ([], none)
  | n + 1 => do
    match ← Task.attempt one with
    | .error e => return ([], some e)
    | .ok c => do
      let (others, failure) ← openEach one n
      return (c :: others, failure)

/-- Opens as many connections as asked for. A failure that means that the database cannot be reached closes those that
were opened. -/
def openAll (d : Driver ω κ) (one : Task ω κ) (unreachable : Failure → Option Failure)
    (n : Nat) : Task ω (List κ) := do
  match ← openEach one n with
  | (opened, none) => return opened
  | (opened, some e) => match unreachable e with
    | none => throw e
    | some failure => do
      opened.forM d.close
      throw failure

end Driver

namespace DriverError

/-- The code of an error, or its kind if it has none. -/
def codeOrName (e : DriverError) : String :=
  match e.code with
  | none | some "" => e.name
  | some code => code

/-- The primary message of an error, or its text if it has none. -/
def primaryOrText (e : DriverError) : String :=
  match e.primary with
  | none | some "" => e.text
  | some message => message

end DriverError

end RecordSql
