import RecordSql.Database.Session
import RecordSql.Proofs.Task

/-!
# Control of transactions

The operations of a session that send one command of their own are all alike: each is refused in some states, sends its
command, and only if that succeeds changes the session and says so in the log. `Control.run_task` says so once for the
five of them.
-/

namespace RecordSql.Session

/-- An operation that starts, ends or marks a transaction. -/
inductive Control
  | begin
  | commit
  | rollback
  | savepoint (name : String)
  | rollbackTo (name : String)
  deriving DecidableEq, Repr

namespace Control

variable {ω κ : Type}

/-- The operation itself. -/
def task (e : Engine ω κ) : Control → Task (SessionState ω κ) Unit
  | .begin => Session.begin e
  | .commit => Session.commit e
  | .rollback => Session.rollback e
  | .savepoint name => Session.savepoint e name
  | .rollbackTo name => Session.rollbackTo e name

/-- The command that is sent. -/
def sql : Control → String
  | .begin => "BEGIN"
  | .commit => "COMMIT"
  | .rollback => "ROLLBACK"
  | .savepoint name => "SAVEPOINT " ++ quoteName name
  | .rollbackTo name => "ROLLBACK TO SAVEPOINT " ++ quoteName name

/-- What the operation is called when it is refused. -/
def action : Control → String
  | .begin => "begin"
  | .commit => "commit"
  | .rollback => "rollback"
  | .savepoint _ => "savepoint"
  | .rollbackTo _ => "rollback to savepoint"

/-- Why a session refuses the operation, if it does. -/
def refusal? (c : Control) (s : Session κ) : Option Failure :=
  match s.phase, c with
  | .closed, c => some (.transactionState "closed" c.action)
  | .idle, .begin => none
  | .idle, c => some (.transactionState "idle" c.action)
  | .active, .begin => some (.transactionState "active" "begin")
  | .active, .rollbackTo name =>
    if s.savepoints.contains name then none
    else some (.transactionState "active" ("roll back to unknown savepoint '" ++ name ++ "'"))
  | .active, _ => none

/-- The session after the operation. -/
def effect (c : Control) (s : Session κ) : Session κ :=
  match c with
  | .begin => { s with phase := .active }
  | .commit | .rollback => { s with phase := .idle, savepoints := [] }
  | .savepoint name => { s with savepoints := s.savepoints ++ [name] }
  | .rollbackTo name => { s with savepoints := upTo name s.savepoints }

/-- What the log says when the operation is done. -/
def message : Control → String
  | .begin => "transaction started"
  | .commit => "transaction committed"
  | .rollback => "transaction rolled back"
  | .savepoint name => "savepoint " ++ name ++ " created"
  | .rollbackTo name => "rolled back to savepoint " ++ name

end Control

variable {ω κ : Type} (e : Engine ω κ) (s : SessionState ω κ)

/-- The state with another database behind the engine. -/
def withDatabase (w : ω) : SessionState ω κ := { s with engine := { s.engine with database := w } }

theorem run_command (sql : String) :
    (command e sql).run s =
      (((e.adapter.execute s.session.connection sql []).run s.engine.database).1.map fun _ => (),
        withDatabase s ((e.adapter.execute s.session.connection sql []).run s.engine.database).2) := by
  rw [command, Task.run_bind_get]
  exact Task.run_discard s _

/-- What the operations have in common: a command, and if it succeeds a change of the session and a line in the log. -/
theorem run_command_update (sql : String) (f : Session κ → Session κ) (text : String) :
    (do command e sql; update f; note e text : Task (SessionState ω κ) Unit).run s =
      match (e.adapter.execute s.session.connection sql []).run s.engine.database with
      | (.ok _, w) => (.ok (), { withDatabase s (e.adapter.log ⟨.debug, text⟩ w) with session := f s.session })
      | (.error failure, w) => (.error failure, withDatabase s w) := by
  rw [Task.run_bind, run_command]
  cases h : (e.adapter.execute s.session.connection sql []).run s.engine.database with
  | mk outcome w => cases outcome <;> rfl

theorem run_requireOpen (action : String) :
    (requireOpen action : Task (SessionState ω κ) Unit).run s =
      if s.session.phase = .closed then (.error (.transactionState "closed" action), s) else (.ok (), s) := by
  rw [requireOpen, Task.run_bind_get]
  split <;> rfl

/-- Work that needs a transaction. -/
theorem run_requireActive (action : String) (work : Task (SessionState ω κ) Unit) :
    (do requireActive action; work : Task (SessionState ω κ) Unit).run s =
      match s.session.phase with
      | .closed => (.error (.transactionState "closed" action), s)
      | .idle => (.error (.transactionState "idle" action), s)
      | .active => work.run s := by
  rw [Task.run_bind, requireActive, Task.run_bind, run_requireOpen]
  cases h : s.session.phase <;> simp [Task.run_bind_get, h]

/-- Each operation is refused, or sends its command; and only if that succeeds the session changes. -/
theorem Control.run_task (c : Control) :
    (c.task e).run s = match c.refusal? s.session with
      | some failure => (.error failure, s)
      | none => match (e.adapter.execute s.session.connection c.sql []).run s.engine.database with
        | (.ok _, w) =>
          (.ok (), { withDatabase s (e.adapter.log ⟨.debug, c.message⟩ w) with session := c.effect s.session })
        | (.error failure, w) => (.error failure, withDatabase s w) := by
  cases c with
  | begin =>
    rw [task, Session.begin, Task.run_bind, run_requireOpen]
    cases h : s.session.phase with
    | idle =>
      simp only [refusal?, h, reduceCtorEq, if_false, Task.run_bind_get]
      exact run_command_update e s _ _ _
    | active => simp [refusal?, h, Task.run_bind]
    | closed => simp [refusal?, h, action]
  | commit =>
    rw [task, Session.commit, run_requireActive]
    cases h : s.session.phase <;> simp only [refusal?, h, action]
    exact run_command_update e s _ _ _
  | rollback =>
    rw [task, Session.rollback, run_requireActive]
    cases h : s.session.phase <;> simp only [refusal?, h, action]
    exact run_command_update e s _ _ _
  | savepoint name =>
    rw [task, Session.savepoint, run_requireActive]
    cases h : s.session.phase <;> simp only [refusal?, h, action]
    exact run_command_update e s _ _ _
  | rollbackTo name =>
    rw [task, Session.rollbackTo, run_requireActive]
    cases h : s.session.phase <;> simp only [refusal?, h, action, Task.run_bind_get]
    by_cases hn : s.session.savepoints.contains name
    · simp only [hn, if_true]
      exact run_command_update e s _ _ _
    · simp only [hn, if_false, Bool.false_eq_true]
      rfl

/-- An operation that succeeds was not refused, and its command was run. -/
theorem Control.of_run_task_ok {c : Control} {s t : SessionState ω κ} (h : (c.task e).run s = (.ok (), t)) :
    c.refusal? s.session = none ∧ t.session = c.effect s.session ∧ ∃ cursor w,
      (e.adapter.execute s.session.connection c.sql []).run s.engine.database = (.ok cursor, w) ∧
      t.engine.database = e.adapter.log ⟨.debug, c.message⟩ w := by
  rw [run_task] at h
  cases hr : c.refusal? s.session with
  | some failure =>
    rw [hr] at h
    cases h
  | none =>
    rw [hr] at h
    cases hx : (e.adapter.execute s.session.connection c.sql []).run s.engine.database with
    | mk outcome w =>
      rw [hx] at h
      cases outcome with
      | error failure => cases h
      | ok cursor =>
        cases h
        exact ⟨rfl, rfl, cursor, w, rfl, rfl⟩

end RecordSql.Session
