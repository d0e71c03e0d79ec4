import RecordSql.Database.Driver

/-!
# A scripted database

A `Stage` plays a database: it numbers the connections that it makes, answers statements and connection attempts from
a script, and remembers every call. Where the script ends, all goes well and statements give no rows.
-/

namespace RecordSql.Rehearsal

/-- A call that the database got. -/
inductive Event
  | opened (size : Nat)
  | connected (connection : Nat) (target : String) (options : Row)
  | optionSet (connection : Nat) (name value : String)
  | executed (connection : Nat) (sql : String) (values : Option (List Value))
  | committed (connection : Nat)
  | rolledBack (connection : Nat)
  | closed (connection : Nat)

/-- What the next calls are answered with. -/
structure Script where
  connects : List (Option Failure)
  replies : List (Except Failure Cursor)
  /-- The failures of the next opening of a pool, the next commit and the next rollback. -/
  onOpen : Option Failure
  onCommit : Option Failure
  onRollback : Option Failure

structure Stage where
  script : Script
  /-- How many connections have been made. -/
  made : Nat
  events : List Event
  log : List LogLine

namespace Stage

/-- A stage on which nothing has happened. -/
def empty : Stage := ⟨⟨[], [], none, none, none⟩, 0, [], []⟩

/-- The stage with a new script and nothing remembered. -/
def rehearse (st : Stage) (script : Script) : Stage :=
  { st with script := script, events := [], log := [] }

def record (st : Stage) (event : Event) : Stage := { st with events := st.events ++ [event] }

def addLine (line : LogLine) (st : Stage) : Stage := { st with log := st.log ++ [line] }

/-- The outcome of a call that fails if the script has a failure for it. -/
def outcomeOf : Option Failure → Except Failure Unit
  | some e => .error e
  | none => .ok ()

/-- Makes a connection. A number is used up also if the script refuses it. -/
def connect (target : String) (options : Row) : Task Stage Nat := fun st =>
  let c := st.made + 1
  let script := { st.script with connects := st.script.connects.drop 1 }
  let outcome := outcomeOf (st.script.connects.head?.getD none)
  (outcome.map fun _ => c,
    { st with made := c, script := script }.record (.connected c target options))

def setOption (c : Nat) (name value : String) : Task Stage Unit := fun st =>
  (.ok (), st.record (.optionSet c name value))

def execute (c : Nat) (sql : String) (values : Option (List Value)) : Task Stage Cursor := fun st =>
  let script := { st.script with replies := st.script.replies.drop 1 }
  (st.script.replies.head?.getD (.ok .silent),
    { st with script := script }.record (.executed c sql values))

def commit (c : Nat) : Task Stage Unit := fun st =>
  let script := { st.script with onCommit := none }
  (outcomeOf st.script.onCommit, { st with script := script }.record (.committed c))

def rollback (c : Nat) : Task Stage Unit := fun st =>
  let script := { st.script with onRollback := none }
  (outcomeOf st.script.onRollback, { st with script := script }.record (.rolledBack c))

def close (c : Nat) : Task Stage Unit := fun st => (.ok (), st.record (.closed c))

/-- Makes as many connections as the settings say. -/
def openAll (s : Settings) : Task Stage (List Nat) := fun st =>
  match st.script.onOpen with
  | some e => (.error e, { st with script := { st.script with onOpen := none } })
  | none => match s.connections with
    | .error e => (.error e, st)
    | .ok n =>
      (.ok ((List.range n).map (st.made + 1 + ·)),
        { st with made := st.made + n }.record (.opened n))

end Stage

/-- The driver whose connections are played by a stage. -/
def driver : Driver Stage Nat where
  connect := Stage.connect
  setOption := Stage.setOption
  execute := Stage.execute
  commit := Stage.commit
  rollback := Stage.rollback
  close := Stage.close
  log := Stage.addLine

/-- The database that a stage plays. It is refusing a statement if it gives a driver's error with code and message. -/
def adapter (style : String) : Adapter Stage Nat where
  style := style
  openAll := Stage.openAll
  execute c sql values := Stage.execute c sql (some values)
  commit := Stage.commit
  rollback := Stage.rollback
  close := Stage.close
  describe
    | .driver ⟨_, _, some code, some message, _⟩ => some (code, message)
    | _ => none
  log := Stage.addLine

end RecordSql.Rehearsal
