import RecordSql.Proofs.Database.Autocommit

/-!
# Operations of a session

What can be done with a session falls into acts: a statement is run, a command of the transaction is sent, the
connection is given back. Closing a session and leaving a block of work are several acts, each done whatever became of
those before it. `Act.course` says once what an act can come to, and `Operation.run_traced_task` that an operation does
its acts and nothing else.
-/

namespace RecordSql

namespace Task

variable {σ : Type}

/-- Does tasks one after the other, whatever their outcomes. The last failure counts. -/
def inTurn : List (Task σ Unit) → Task σ Unit
  | [] => pure ()
  | task :: rest => andThen task (inTurn rest)

theorem run_inTurn_singleton (task : Task σ Unit) (s : σ) : (inTurn [task]).run s = task.run s :=
  run_andThen s task (pure ())

end Task

namespace Session

open Outcome (failure?)

/-! ### Acts -/

/-- A part of an operation. -/
inductive Act
  | statement (st : Statement)
  | control (c : Control)
  | finish

/-- An act that was done: what it came to, and the calls that it made. -/
structure Deed (κ : Type) where
  act : Act
  outcome : Except Failure Unit
  calls : List (Adapter.Call κ)

namespace Act

variable {ω κ : Type} (e : Engine ω κ) (a : Act) (s : SessionState ω κ) (calls : List (Adapter.Call κ))

def task : Act → Task (SessionState ω κ) Unit
  | .statement st => discard (Session.run e st)
  | .control c => c.task e
  | .finish => Session.finish

/-- The state that an act leads to. -/
def next : SessionState ω κ := ((a.task e).run s).2

/-- The act as it is done in a state. -/
def deed : Deed κ := ⟨a, ((a.task e).run s).1, ((a.task e.traced).run (s.traced [])).2.engine.database.2⟩

end Act

variable {ω κ : Type} (e : Engine ω κ) (s : SessionState ω κ) (calls : List (Adapter.Call κ))

theorem run_finish :
    (finish : Task (SessionState ω κ) Unit).run s =
      (match s.engine.pool with
        | some _ => .ok ()
        | none => .error .absentAttribute,
        ⟨{ s.session with phase := .closed },
          { s.engine with pool := s.engine.pool.map (·.put s.session.connection) }⟩) := by
  obtain ⟨session, pool, w⟩ := s
  cases pool <;> rfl

/-- A statement changes only the database. -/
theorem exists_run_run (st : Statement) : ∃ w, ((Session.run e st).run s).2 = withDatabase s w := by
  rw [run_run]
  cases s.session.phase with
  | closed => exact ⟨s.engine.database, rfl⟩
  | active => exact ⟨_, rfl⟩
  | idle =>
    cases (e.adapter.send e.settings.echo s.session.connection st).run s.engine.database with
    | mk outcome w => cases outcome <;> exact ⟨_, rfl⟩

/-- The calls of a statement execute it, and commit it if the session is idle. -/
theorem runCalls_cases (st : Statement) {x : Adapter.Call κ} (hx : x ∈ runCalls e st s) :
    (∃ sql failure, x = .executed s.session.connection sql st.values failure) ∨
      s.session.phase = .idle ∧ ∃ failure, x = .committed s.session.connection failure := by
  have hsend : x ∈ e.adapter.sendCalls e.settings.echo s.session.connection st s.engine.database →
      ∃ sql failure, x = .executed s.session.connection sql st.values failure := by
    intro hx
    rcases e.adapter.sendCalls_cases e.settings.echo s.session.connection st s.engine.database with
      hnone | ⟨sql, failure, hone⟩
    · rw [hnone] at hx
      cases hx
    · rw [hone, List.mem_singleton] at hx
      exact ⟨sql, failure, hx⟩
  rw [runCalls] at hx
  cases hp : s.session.phase with
  | closed =>
    rw [hp] at hx
    cases hx
  | active =>
    rw [hp] at hx
    exact .inl (hsend hx)
  | idle =>
    rw [hp] at hx
    rcases List.mem_append.1 hx with hx | hx
    · exact .inl (hsend hx)
    · cases h : (e.adapter.send e.settings.echo s.session.connection st).run s.engine.database with
      | mk outcome w =>
        rw [h] at hx
        cases outcome with
        | error f => cases hx
        | ok rows => exact .inr ⟨rfl, _, List.mem_singleton.1 hx⟩

theorem Control.run_traced_task (c : Control) :
    (c.task e.traced).run (s.traced calls) =
      (((c.task e).run s).1, ((c.task e).run s).2.traced (calls ++ match c.refusal? s.session with
        | some _ => []
        | none => [.executed s.session.connection c.sql []
            (failure? ((e.adapter.execute s.session.connection c.sql []).run s.engine.database).1)])) := by
  have hexecute : (e.traced.adapter.execute (s.traced calls).session.connection c.sql []).run
      (s.traced calls).engine.database = _ :=
    e.adapter.run_traced_execute s.session.connection s.engine.database calls c.sql []
  have hrefusal : c.refusal? (s.traced calls).session = c.refusal? s.session := rfl
  rw [run_task, run_task, hexecute, hrefusal]
  cases c.refusal? s.session with
  | some f =>
    dsimp only
    rw [List.append_nil]
  | none =>
    cases (e.adapter.execute s.session.connection c.sql []).run s.engine.database with
    | mk outcome w => cases outcome <;> rfl

theorem run_traced_finish :
    (finish : Task (SessionState (ω × List (Adapter.Call κ)) κ) Unit).run (s.traced calls) =
      ((finish.run s).1, (finish.run s).2.traced calls) := by
  rw [run_finish, run_finish]
  rfl

namespace Act

variable (a : Act)

-- the calls that an act adds do not depend on those made before it
theorem exists_run_traced_task :
    ∃ added, ∀ calls, (a.task e.traced).run (s.traced calls) =
      (((a.task e).run s).1, (a.next e s).traced (calls ++ added)) := by
  cases a with
  | statement st =>
    refine ⟨runCalls e st s, fun calls => ?_⟩
    rw [task, next, task, Task.run_discard, Task.run_discard, Session.run_traced_run]
  | control c => exact ⟨_, fun calls => c.run_traced_task e s calls⟩
  | finish =>
    refine ⟨[], fun calls => ?_⟩
    rw [List.append_nil]
    exact run_traced_finish s calls

/-- An act does the same with the list of calls as without, and adds its own calls to it. -/
theorem run_traced_task :
    (a.task e.traced).run (s.traced calls) =
      ((a.deed e s).outcome, (a.next e s).traced (calls ++ (a.deed e s).calls)) := by
  obtain ⟨added, h⟩ := a.exists_run_traced_task e s
  have hcalls : (a.deed e s).calls = added := by
    rw [deed, h []]
    rfl
  rw [h, hcalls]
  rfl

theorem deed_statement (st : Statement) :
    (statement st).deed e s = ⟨.statement st, ((Session.run e st).run s).1.map fun _ => (), runCalls e st s⟩ := by
  rw [deed, task, task, Task.run_discard, Task.run_discard, Session.run_traced_run]
  rfl

theorem deed_control (c : Control) :
    (control c).deed e s = ⟨.control c, ((c.task e).run s).1, match c.refusal? s.session with
      | some _ => []
      | none => [.executed s.session.connection c.sql []
          (failure? ((e.adapter.execute s.session.connection c.sql []).run s.engine.database).1)]⟩ := by
  rw [deed, task, task, Control.run_traced_task]
  rfl

theorem deed_finish : finish.deed e s = ⟨.finish, (Session.finish.run s).1, []⟩ := by
  rw [deed, task, task, run_traced_finish]
  rfl

/-- What an act can come to: the deed, and what it leaves of the session and of the pool. -/
inductive Course (s : Session κ) (pool : Option (Pool κ)) : Deed κ → Session κ → Option (Pool κ) → Prop
  | statement (st : Statement) (outcome : Except Failure Unit) (calls : List (Adapter.Call κ)) (hp : s.phase ≠ .closed)
    (hcalls : ∀ x ∈ calls, (∃ sql failure, x = .executed s.connection sql st.values failure) ∨
      s.phase = .idle ∧ ∃ failure, x = .committed s.connection failure) :
    Course s pool ⟨.statement st, outcome, calls⟩ s pool
  | refusedStatement (st : Statement) (hp : s.phase = .closed) :
    Course s pool ⟨.statement st, .error (.transactionState "closed" "execute"), []⟩ s pool
  | refused (c : Control) (f : Failure) (hr : c.refusal? s = some f) :
    Course s pool ⟨.control c, .error f, []⟩ s pool
  | failed (c : Control) (f : Failure) (hr : c.refusal? s = none) :
    Course s pool ⟨.control c, .error f, [.executed s.connection c.sql [] (some f)]⟩ s pool
  | done (c : Control) (hr : c.refusal? s = none) :
    Course s pool ⟨.control c, .ok (), [.executed s.connection c.sql [] none]⟩ (c.effect s) pool
  | finished (outcome : Except Failure Unit) (ho : pool.isSome → outcome = .ok ()) :
    Course s pool ⟨.finish, outcome, []⟩ { s with phase := .closed } (pool.map (·.put s.connection))

theorem course : Course s.session s.engine.pool (a.deed e s) (a.next e s).session (a.next e s).engine.pool := by
  cases a with
  | statement st =>
    have hnext : (statement st).next e s = ((Session.run e st).run s).2 := by rw [next, task, Task.run_discard]
    rw [deed_statement, hnext]
    by_cases hp : s.session.phase = .closed
    · rw [runCalls, run_run, hp]
      exact .refusedStatement st hp
    · obtain ⟨w, hw⟩ := exists_run_run e s st
      rw [hw]
      exact .statement st _ _ hp fun x => runCalls_cases e s st
  | control c =>
    rw [deed_control, next, task, Control.run_task]
    cases hr : c.refusal? s.session with
    | some f => exact .refused c f hr
    | none =>
      cases (e.adapter.execute s.session.connection c.sql []).run s.engine.database with
      | mk outcome w => cases outcome with
        | error f => exact .failed c f hr
        | ok cursor => exact .done c hr
  | finish =>
    rw [deed_finish, next, task, run_finish]
    refine .finished _ fun hpool => ?_
    cases hs : s.engine.pool with
    | some pool => rfl
    | none => simp [hs] at hpool

end Act

/-! ### Acts in turn -/

/-- The state that acts lead to. -/
def afterActs (acts : List Act) (s : SessionState ω κ) : SessionState ω κ := acts.foldl (fun s a => a.next e s) s

/-- Acts as they are done, one after the other. -/
def deedsOf (s : SessionState ω κ) : List Act → List (Deed κ)
  | [] => []
  | a :: rest => a.deed e s :: deedsOf (a.next e s) rest

/-- The outcome of deeds together: the last failure. -/
def overall : List (Deed κ) → Except Failure Unit
  | [] => .ok ()
  | d :: rest => match overall rest with
    | .ok _ => d.outcome
    | .error f => .error f

theorem run_inTurn (acts : List Act) :
    (Task.inTurn (acts.map (Act.task e))).run s = (overall (deedsOf e s acts), afterActs e acts s) := by
  induction acts generalizing s with
  | nil => rfl
  | cons a rest ih =>
    have hrest := ih (a.next e s)
    rw [Act.next] at hrest
    rw [List.map_cons, Task.inTurn, Task.run_andThen, hrest, deedsOf, overall, Act.next]
    cases overall (deedsOf e ((a.task e).run s).2 rest) <;> rfl

theorem run_traced_inTurn (acts : List Act) :
    (Task.inTurn (acts.map (Act.task e.traced))).run (s.traced calls) =
      (overall (deedsOf e s acts),
        (afterActs e acts s).traced (calls ++ (deedsOf e s acts).flatMap Deed.calls)) := by
  induction acts generalizing s calls with
  | nil =>
    rw [deedsOf, List.flatMap_nil, List.append_nil]
    rfl
  | cons a rest ih =>
    rw [List.map_cons, Task.inTurn, Task.run_andThen, Act.run_traced_task, ih, deedsOf, overall, List.flatMap_cons,
      ← List.append_assoc]
    cases overall (deedsOf e (a.next e s) rest) <;> rfl

/-! ### Operations -/

/-- What can be done with a session. -/
inductive Operation
  | run (st : Statement)
  | control (c : Control)
  | close
  | leave (failed : Bool)

/-- The acts of closing a session. -/
def closing (s : Session κ) : List Act :=
  match s.phase with
  | .closed => []
  | .active => [.control .rollback, .finish]
  | .idle => [.finish]

/-- How the transaction of a block of work is ended. -/
def ending (failed : Bool) : Control := if failed then .rollback else .commit

namespace Operation

def task (e : Engine ω κ) : Operation → Task (SessionState ω κ) Unit
  | .run st => discard (Session.run e st)
  | .control c => c.task e
  | .close => Session.close e
  | .leave failed => Session.leave e failed

variable (o : Operation)

/-- The state that an operation leads to, whatever comes of it. -/
def next : SessionState ω κ := ((o.task e).run s).2

/-- The acts of an operation. A block of work is left by ending its transaction, and closing the session that is then
there. -/
def acts : Operation → List Act
  | .run st => [.statement st]
  | .control c => [.control c]
  | .close => closing s.session
  | .leave failed => match s.session.phase with
    | .active => .control (ending failed) :: closing ((Act.control (ending failed)).next e s).session
    | _ => closing s.session

/-- The operation as it is done in a state. -/
def deeds : List (Deed κ) := deedsOf e s (o.acts e s)

variable {s} in
theorem acts_leave_active (failed : Bool) (hp : s.session.phase = .active) :
    (leave failed).acts e s = .control (ending failed) :: closing ((Act.control (ending failed)).next e s).session := by
  rw [acts, hp]

variable {s} in
theorem acts_leave_of_ne (failed : Bool) (hp : s.session.phase ≠ .active) :
    (leave failed).acts e s = closing s.session := by
  cases h : s.session.phase with
  | active => exact absurd h hp
  | _ => rw [acts, h]

theorem run_close : (Session.close e).run s = (Task.inTurn ((closing s.session).map (Act.task e))).run s := by
  rw [Session.close, Task.run_bind_get, closing]
  cases s.session.phase with
  | closed => rfl
  | idle => exact (Task.run_inTurn_singleton _ s).symm
  | active =>
    rw [List.map_cons, Task.inTurn, Task.run_andThen, Task.run_andThen, List.map_singleton, Task.run_inTurn_singleton]
    rfl

theorem run_leave (failed : Bool) :
    (Session.leave e failed).run s = (Task.inTurn (((leave failed).acts e s).map (Act.task e))).run s := by
  rw [Session.leave, Task.run_bind_get]
  cases hp : s.session.phase with
  | closed =>
    rw [acts_leave_of_ne e failed (by simp [hp]), closing, hp]
    rfl
  | idle =>
    rw [acts_leave_of_ne e failed (by simp [hp])]
    exact run_close e s
  | active =>
    have hending : (if failed then Session.rollback e else Session.commit e) = (ending failed).task e := by
      cases failed <;> rfl
    rw [acts_leave_active e failed hp, List.map_cons, Task.inTurn, Task.run_andThen, Task.run_andThen, run_close,
      hending]
    rfl

/-- An operation does its acts. -/
theorem run_task : (o.task e).run s = (Task.inTurn ((o.acts e s).map (Act.task e))).run s := by
  cases o with
  | run st => exact (Task.run_inTurn_singleton _ s).symm
  | control c => exact (Task.run_inTurn_singleton _ s).symm
  | close => exact run_close e s
  | leave failed => exact run_leave e s failed

/-- What comes of an operation is what comes of its acts. -/
theorem run_task_eq : (o.task e).run s = (overall (o.deeds e s), afterActs e (o.acts e s) s) := by
  rw [run_task, run_inTurn, deeds]

theorem next_eq : o.next e s = afterActs e (o.acts e s) s := by
  rw [next, run_task_eq]

theorem acts_traced : o.acts e.traced (s.traced calls) = o.acts e s := by
  have hphase : (s.traced calls).session.phase = s.session.phase := rfl
  cases o with
  | run st => rfl
  | control c => rfl
  | close => rfl
  | leave failed =>
    have hnext : ((Act.control (ending failed)).next e.traced (s.traced calls)).session =
        ((Act.control (ending failed)).next e s).session := by
      rw [Act.next, Act.run_traced_task]
      rfl
    rw [acts, acts, hphase, hnext]
    rfl

/-- With a list of calls an operation does the same, and adds the calls of its deeds. -/
theorem run_traced_task :
    (o.task e.traced).run (s.traced calls) =
      (((o.task e).run s).1, (o.next e s).traced (calls ++ (o.deeds e s).flatMap Deed.calls)) := by
  rw [run_task, acts_traced, run_traced_inTurn, next_eq, run_task_eq, deeds]

end Operation

/-! ### Runs of operations -/

/-- The state that operations lead to, whatever comes of each. -/
def after (ops : List Operation) (s : SessionState ω κ) : SessionState ω κ := ops.foldl (fun s o => o.next e s) s

/-- What operations do, one after the other. -/
def deeds (s : SessionState ω κ) : List Operation → List (Deed κ)
  | [] => []
  | o :: rest => o.deeds e s ++ deeds (o.next e s) rest

/-- The calls that the database gets from operations. -/
def journal (ops : List Operation) : List (Adapter.Call κ) := (after e.traced ops (s.traced [])).engine.database.2

theorem after_traced (ops : List Operation) :
    after e.traced ops (s.traced calls) = (after e ops s).traced (calls ++ (deeds e s ops).flatMap Deed.calls) := by
  induction ops generalizing s calls with
  | nil =>
    rw [deeds, List.flatMap_nil, List.append_nil]
    rfl
  | cons o rest ih =>
    have hnext : o.next e.traced (s.traced calls) =
        (o.next e s).traced (calls ++ (o.deeds e s).flatMap Deed.calls) := by
      rw [Operation.next, Operation.run_traced_task]
    rw [after, List.foldl_cons, ← after, hnext, ih, deeds, List.flatMap_append, ← List.append_assoc]
    rfl

/-- The calls that the database gets are those of the deeds, in order. -/
theorem journal_eq (ops : List Operation) : journal e s ops = (deeds e s ops).flatMap Deed.calls := by
  rw [journal, after_traced]
  rfl

end Session

end RecordSql
