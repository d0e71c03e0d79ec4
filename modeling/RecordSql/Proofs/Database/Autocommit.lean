import RecordSql.Proofs.Database.Control
import RecordSql.Proofs.Database.Ledger

/-!
# Statements outside a transaction

Outside a transaction a session commits each statement by itself, as an engine does. Both make the same calls and come
to the same, except when sending the statement fails: an engine then rolls back and a session does not, so that what was
executed stays pending on the connection of the session.
-/

namespace RecordSql

/-- The state of a session with a list of calls beside the database. -/
def SessionState.traced {ω κ : Type} (s : SessionState ω κ) (calls : List (Adapter.Call κ)) :
    SessionState (ω × List (Adapter.Call κ)) κ := ⟨s.session, s.engine.traced calls⟩

namespace Session

open Outcome (failure?)

variable {ω κ α : Type} (e : Engine ω κ) (st : Statement) (s : SessionState ω κ) (calls : List (Adapter.Call κ))

theorem run_inDatabase (task : Task ω α) :
    (inDatabase task : Task (SessionState ω κ) α).run s =
      ((task.run s.engine.database).1, withDatabase s (task.run s.engine.database).2) := rfl

/-- A closed session refuses statements, an idle one commits those that were sent well, and in a transaction they are
only sent. -/
theorem run_run :
    (Session.run e st).run s = match s.session.phase with
      | .closed => (.error (.transactionState "closed" "execute"), s)
      | .active =>
        (((e.adapter.send e.settings.echo s.session.connection st).run s.engine.database).1,
          withDatabase s ((e.adapter.send e.settings.echo s.session.connection st).run s.engine.database).2)
      | .idle => match (e.adapter.send e.settings.echo s.session.connection st).run s.engine.database with
        | (.ok rows, w) =>
          (((e.adapter.commit s.session.connection).run w).1.map fun _ => rows,
            withDatabase s ((e.adapter.commit s.session.connection).run w).2)
        | (.error f, w) => (.error f, withDatabase s w) := by
  rw [Session.run, Task.run_bind, run_requireOpen]
  cases hp : s.session.phase with
  | closed => rfl
  | active =>
    simp only [reduceCtorEq, if_false]
    rw [Task.run_bind_get, Task.run_bind, run_inDatabase]
    cases (e.adapter.send e.settings.echo s.session.connection st).run s.engine.database with
    | mk outcome w => cases outcome with
      | error f => rfl
      | ok rows => simp [Task.run_bind_get, withDatabase, hp]
  | idle =>
    simp only [reduceCtorEq, if_false]
    rw [Task.run_bind_get, Task.run_bind, run_inDatabase]
    cases (e.adapter.send e.settings.echo s.session.connection st).run s.engine.database with
    | mk outcome w => cases outcome with
      | error f => rfl
      | ok rows =>
        simp only [Task.run_bind_get, withDatabase, hp, if_true]
        rw [Task.run_bind, run_inDatabase]
        dsimp only
        cases (e.adapter.commit s.session.connection).run w with
        | mk ended v => cases ended <;> rfl

/-- The calls that running a statement makes. -/
def runCalls : List (Adapter.Call κ) :=
  match s.session.phase with
  | .closed => []
  | .active => e.adapter.sendCalls e.settings.echo s.session.connection st s.engine.database
  | .idle =>
    e.adapter.sendCalls e.settings.echo s.session.connection st s.engine.database ++
      match (e.adapter.send e.settings.echo s.session.connection st).run s.engine.database with
      | (.ok _, w) => [.committed s.session.connection (failure? ((e.adapter.commit s.session.connection).run w).1)]
      | (.error _, _) => []

theorem run_traced_run :
    (Session.run e.traced st).run (s.traced calls) =
      (((Session.run e st).run s).1, (((Session.run e st).run s).2).traced (calls ++ runCalls e st s)) := by
  have hsend : (e.traced.adapter.send e.traced.settings.echo (s.traced calls).session.connection st).run
      (s.traced calls).engine.database = _ :=
    e.adapter.run_traced_send e.settings.echo s.session.connection st s.engine.database calls
  have hphase : (s.traced calls).session.phase = s.session.phase := rfl
  rw [run_run, run_run, runCalls, hsend, hphase]
  cases s.session.phase with
  | closed =>
    dsimp only
    rw [List.append_nil]
  | active => rfl
  | idle =>
    cases (e.adapter.send e.settings.echo s.session.connection st).run s.engine.database with
    | mk outcome w => cases outcome with
      | error f =>
        dsimp only
        rw [List.append_nil]
        rfl
      | ok rows =>
        have hcommit : (e.traced.adapter.commit (s.traced calls).session.connection).run
            (w, calls ++ e.adapter.sendCalls e.settings.echo s.session.connection st s.engine.database) = _ :=
          e.adapter.run_traced_commit s.session.connection w _
        dsimp only
        rw [hcommit, List.append_assoc]
        rfl

/-- The calls that a statement makes on a session, as its database gets them. -/
def callsOf : List (Adapter.Call κ) := ((Session.run e.traced st).run (s.traced [])).2.engine.database.2

theorem callsOf_eq : callsOf e st s = runCalls e st s := by
  rw [callsOf, run_traced_run]
  rfl

/-! ### The engine of the connection -/

variable (free : Pool κ)

/-- The engine on which the connection of the session would be taken next. -/
def lent : EngineState ω κ := ⟨some (free.put s.session.connection), s.engine.database⟩

theorem run_lent :
    (e.run st).run (lent s free) =
      (((e.transact st s.session.connection).run s.engine.database).1,
        ⟨some (free.put s.session.connection), ((e.transact st s.session.connection).run s.engine.database).2⟩) := by
  rw [Engine.run_run, lent, Engine.run_acquire_open, Pool.take_put]
  rfl

theorem callsOf_lent :
    e.callsOf st (lent s free) =
      e.adapter.sendCalls e.settings.echo s.session.connection st s.engine.database ++
        e.endCalls st s.session.connection s.engine.database := by
  rw [Engine.callsOf_eq, lent, Engine.run_acquire_open, Pool.take_put]
  rfl

/-- What sending the statement on the connection comes to. -/
def sent : Except Failure (List Row) :=
  ((e.adapter.send e.settings.echo s.session.connection st).run s.engine.database).1

/-- A statement makes the calls that it makes on the engine of the connection, and comes to the same. -/
structure AsOnEngine : Prop where
  outcome : ((Session.run e st).run s).1 = ((e.run st).run (lent s free)).1
  database : ((Session.run e st).run s).2.engine.database = ((e.run st).run (lent s free)).2.database
  calls : callsOf e st s = e.callsOf st (lent s free)

variable {e st s free}

theorem run_send_of_sent {outcome : Except Failure (List Row)} (h : sent e st s = outcome) :
    ∃ w, (e.adapter.send e.settings.echo s.session.connection st).run s.engine.database = (outcome, w) :=
  ⟨_, Prod.ext h rfl⟩

/-- What was sent well was executed, and then it is committed, which may fail. -/
theorem calls_of_sent_ok (hp : s.session.phase = .idle) {rows : List Row} (h : sent e st s = .ok rows) :
    ∃ sql r, callsOf e st s = [.executed s.session.connection sql st.values none, .committed s.session.connection r] ∧
      ((Session.run e st).run s).1 = match r with
        | none => .ok rows
        | some f => .error f := by
  obtain ⟨w, hx⟩ := run_send_of_sent h
  obtain ⟨sql, -, hsend⟩ := e.adapter.sendCalls_of_run_send e.settings.echo s.session.connection st _ hx
  refine ⟨sql, failure? ((e.adapter.commit s.session.connection).run w).1, ?_, ?_⟩
  · rw [callsOf_eq, runCalls, hp, hsend, hx]
    rfl
  · rw [run_run, hp, hx]
    dsimp only
    cases ((e.adapter.commit s.session.connection).run w).1 <;> rfl

/-- If sending fails, the only call is that which executed the statement, if it came to that. -/
theorem calls_of_sent_error (hp : s.session.phase = .idle) {f : Failure} (h : sent e st s = .error f) :
    ((Session.run e st).run s).1 = .error f ∧
      (callsOf e st s = [] ∨ ∃ sql r, callsOf e st s = [.executed s.session.connection sql st.values r]) := by
  obtain ⟨w, hx⟩ := run_send_of_sent h
  rw [run_run, callsOf_eq, runCalls, hp, hx]
  dsimp only
  rw [List.append_nil]
  exact ⟨rfl, e.adapter.sendCalls_cases e.settings.echo s.session.connection st _⟩

/-- A statement that was sent well is committed by both. -/
theorem asOnEngine_of_sent_ok (hp : s.session.phase = .idle) {rows : List Row} (h : sent e st s = .ok rows) :
    AsOnEngine e st s free := by
  obtain ⟨w, hx⟩ := run_send_of_sent h
  refine ⟨?_, ?_, ?_⟩
  · rw [run_run, run_lent, Engine.run_transact, hp, hx]
  · rw [run_run, run_lent, Engine.run_transact, hp, hx]
    rfl
  · rw [callsOf_eq, callsOf_lent, runCalls, Engine.endCalls, hp, hx]

/-- After an interrupt neither does more. -/
theorem asOnEngine_of_interrupted (hp : s.session.phase = .idle) {f : Failure} (h : sent e st s = .error f)
    (hf : f.isIn .interrupt) : AsOnEngine e st s free := by
  obtain ⟨w, hx⟩ := run_send_of_sent h
  refine ⟨?_, ?_, ?_⟩
  · rw [run_run, run_lent, Engine.run_transact, hp, hx]
    dsimp only
    rw [if_pos hf]
  · rw [run_run, run_lent, Engine.run_transact, hp, hx]
    dsimp only
    rw [if_pos hf]
    rfl
  · rw [callsOf_eq, callsOf_lent, runCalls, Engine.endCalls, hp, hx]
    dsimp only
    rw [if_pos hf]

/-- After any other failure the engine makes one call more, which rolls back. -/
theorem rolledBack_of_refused (hp : s.session.phase = .idle) {f : Failure} (h : sent e st s = .error f)
    (hf : ¬ f.isIn .interrupt) :
    ∃ r, e.callsOf st (lent s free) = callsOf e st s ++ [.rolledBack s.session.connection r] ∧
      ((e.run st).run (lent s free)).1 = .error (r.getD f) := by
  obtain ⟨w, hx⟩ := run_send_of_sent h
  refine ⟨failure? ((e.adapter.rollback s.session.connection).run w).1, ?_, ?_⟩
  · rw [callsOf_eq, callsOf_lent, runCalls, Engine.endCalls, hp, hx]
    dsimp only
    rw [if_neg hf, List.append_nil]
  · rw [run_lent, Engine.run_transact, hx]
    dsimp only
    rw [if_neg hf]
    cases ((e.adapter.rollback s.session.connection).run w).1 <;> rfl

/-- Nothing stays pending exactly if the statement returned, or was not executed. -/
theorem pending_iff [DecidableEq κ] (hp : s.session.phase = .idle) {l : Ledger κ} (hl : l.Clean) :
    (l.afterAll (callsOf e st s)).pending s.session.connection = [] ↔
      (∃ rows, ((Session.run e st).run s).1 = .ok rows) ∨
        ∀ sql values, .executed s.session.connection sql values none ∉ callsOf e st s := by
  cases h : sent e st s with
  | ok rows =>
    obtain ⟨sql, r, hcalls, hrun⟩ := calls_of_sent_ok hp h
    rw [hcalls, hrun]
    cases r with
    | none => simp [hl.committed, hl s.session.connection]
    | some f =>
      have hledger : l.afterAll [.executed s.session.connection sql st.values none,
          .committed s.session.connection (some f)] =
            l.afterAll [.executed s.session.connection sql st.values none] := rfl
      simp [hledger, hl.executed]
  | error f =>
    obtain ⟨hrun, hcalls | ⟨sql, r, hcalls⟩⟩ := calls_of_sent_error hp h
    · simp [hcalls, hrun, Ledger.afterAll, hl s.session.connection]
    · rw [hcalls, hrun]
      cases r with
      | none => simp [hl.executed]
      | some g => simp [Ledger.afterAll, Ledger.after, hl s.session.connection]

variable (e st s free) in
/-- Outside a transaction a statement makes the calls that it makes on the engine of the connection and comes to the
same, exactly if sending it does not fail, or is interrupted. If it fails otherwise, the engine also rolls back and the
session does not. The session leaves nothing pending exactly if the statement returned, or was not executed. -/
theorem as_on_engine_iff [DecidableEq κ] (hp : s.session.phase = .idle) :
    (AsOnEngine e st s free ↔ ∀ f, sent e st s = .error f → f.isIn .interrupt) ∧
    (∀ rows, sent e st s = .ok rows → ∃ sql r,
      callsOf e st s = [.executed s.session.connection sql st.values none, .committed s.session.connection r] ∧
      ((Session.run e st).run s).1 = match r with
        | none => .ok rows
        | some f => .error f) ∧
    (∀ f, sent e st s = .error f → ¬ f.isIn .interrupt → ((Session.run e st).run s).1 = .error f ∧
      ∃ r, e.callsOf st (lent s free) = callsOf e st s ++ [.rolledBack s.session.connection r] ∧
        ((e.run st).run (lent s free)).1 = .error (r.getD f)) ∧
    ∀ l : Ledger κ, l.Clean → ((l.afterAll (callsOf e st s)).pending s.session.connection = [] ↔
      (∃ rows, ((Session.run e st).run s).1 = .ok rows) ∨
        ∀ sql values, .executed s.session.connection sql values none ∉ callsOf e st s) := by
  refine ⟨⟨fun hsame f hf => ?_, fun hall => ?_⟩, fun rows => calls_of_sent_ok hp,
    fun f hf hi => ⟨(calls_of_sent_error hp hf).1, rolledBack_of_refused hp hf hi⟩, fun l hl => pending_iff hp hl⟩
  · refine Classical.byContradiction fun hi => ?_
    have hmore : ∃ r, e.callsOf st (lent s free) = callsOf e st s ++ [.rolledBack s.session.connection r] ∧ _ :=
      rolledBack_of_refused hp hf hi
    obtain ⟨r, hcalls, -⟩ := hmore
    simp [hsame.calls] at hcalls
  · cases h : sent e st s with
    | ok rows => exact asOnEngine_of_sent_ok hp h
    | error f => exact asOnEngine_of_interrupted hp h (hall f h)

end Session

namespace Rehearsal

open Session (callsOf lent AsOnEngine)

/-- A session that was just opened on the scripted database. -/
def seated (script : Script) : SessionState Stage Nat := ⟨⟨1, .idle, []⟩, ((Session.start solo).run (onStage script)).2⟩

/-- A row that is shorter than its columns. -/
def shortRow : Cursor := ⟨some ["id", "name"], .ok (.positional [[.integer 1]])⟩

/-- If only the commit fails, all is as on an engine, and the statement stays pending as it does there. -/
theorem as_on_engine_busy_commit :
    let s := seated ⟨[], [], none, some busy, none⟩
    s.session.phase = .idle ∧ AsOnEngine solo (addUser "Ann") s [] ∧
      (Ledger.empty.afterAll (callsOf solo (addUser "Ann") s)).pending 1 ≠ [] := by
  intro s
  have hp : s.session.phase = .idle := rfl
  have hsent : Session.sent solo (addUser "Ann") s = .ok [] := rfl
  have hcalls : callsOf solo (addUser "Ann") s =
      [.executed 1 "INSERT INTO users VALUES ($1);" [.text "Ann"] none, .committed 1 (some busy)] := rfl
  have hrun : ((Session.run solo (addUser "Ann")).run s).1 = .error busy := rfl
  obtain ⟨hsame, -, -, hpending⟩ := Session.as_on_engine_iff solo (addUser "Ann") s [] hp
  refine ⟨hp, hsame.2 fun f hf => ?_, fun h => ?_⟩
  · rw [hsent] at hf
    cases hf
  · rcases (hpending .empty fun _ => rfl).1 h with ⟨rows, hrows⟩ | hno
    · rw [hrun] at hrows
      cases hrows
    · exact hno _ _ (hcalls ▸ List.mem_cons_self)

/-- If the rows of a statement cannot be fetched, the engine rolls back and the session does not: what was executed is
pending, and the next statement makes it durable. -/
theorem durable_after_failed_fetch :
    let s := seated ⟨[], [.ok shortRow], none, none, none⟩
    let ann := (Session.run solo (addUser "Ann")).run s
    let bob := (Session.run solo (addUser "Bob")).run ann.2
    ann.1 = .error (.lengthMismatch true) ∧
    ((solo.run (addUser "Ann")).run (lent s [])).1 = .error (.lengthMismatch true) ∧
    callsOf solo (addUser "Ann") s = [.executed 1 "INSERT INTO users VALUES ($1);" [.text "Ann"] none] ∧
    solo.callsOf (addUser "Ann") (lent s []) =
      [.executed 1 "INSERT INTO users VALUES ($1);" [.text "Ann"] none, .rolledBack 1 none] ∧
    bob.1 = .ok [] ∧
    (Ledger.empty.afterAll (callsOf solo (addUser "Ann") s ++ callsOf solo (addUser "Bob") ann.2)).durable =
      [("INSERT INTO users VALUES ($1);", [.text "Ann"]), ("INSERT INTO users VALUES ($1);", [.text "Bob"])] :=
  ⟨rfl, rfl, rfl, rfl, rfl, rfl⟩

end Rehearsal

end RecordSql
