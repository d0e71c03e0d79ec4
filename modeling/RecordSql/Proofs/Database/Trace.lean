import RecordSql.Database.Engine
import RecordSql.Proofs.Outcome
import RecordSql.Proofs.Task

/-!
# Calls of a database

Any adapter can be given a list of the calls that it gets. What it does is the same with the list as without, so that
the list tells of every engine and of every database what is asked of it, in which order, and how each call went. For a
statement that is sent, and for one that is run with its transaction, this module says which calls these are.
-/

namespace RecordSql

/-- How something failed, if it did. -/
def Outcome.failure? {ε α : Type} : Except ε α → Option ε
  | .ok _ => none
  | .error e => some e

/-- A call of a database, with the connection that it was on, and how it failed if it did. -/
inductive Adapter.Call (κ : Type)
  | opened (outcome : Except Failure (List κ))
  | executed (connection : κ) (sql : String) (values : List Value) (failure : Option Failure)
  | committed (connection : κ) (failure : Option Failure)
  | rolledBack (connection : κ) (failure : Option Failure)
  | closed (connection : κ) (failure : Option Failure)

/-- A task with a list beside its state, to which an entry on the task is added. -/
def Task.recorded {ω ι α : Type} (task : Task ω α) (entry : Except Failure α → ι) : Task (ω × List ι) α :=
  fun (w, entries) =>
    let (outcome, w') := task.run w
    (outcome, w', entries ++ [entry outcome])

theorem Task.run_recorded {ω ι α : Type} (task : Task ω α) (entry : Except Failure α → ι) (w : ω) (entries : List ι) :
    (task.recorded entry).run (w, entries) =
      ((task.run w).1, (task.run w).2, entries ++ [entry (task.run w).1]) := rfl

/-! ### Statements that are sent -/

namespace Adapter

open Outcome (failure?)

variable {ω κ α : Type}

/-- The adapter with a list of its calls. -/
def traced (a : Adapter ω κ) : Adapter (ω × List (Call κ)) κ where
  style := a.style
  openAll s := (a.openAll s).recorded .opened
  execute c sql values := (a.execute c sql values).recorded fun outcome => .executed c sql values (failure? outcome)
  commit c := (a.commit c).recorded fun outcome => .committed c (failure? outcome)
  rollback c := (a.rollback c).recorded fun outcome => .rolledBack c (failure? outcome)
  close c := (a.close c).recorded fun outcome => .closed c (failure? outcome)
  describe := a.describe
  log line := fun (w, calls) => (a.log line w, calls)

variable (a : Adapter ω κ) (echo : Bool) (c : κ) (s : Statement) (w : ω) (calls : List (Call κ))

theorem run_traced_execute (sql : String) (values : List Value) :
    (a.traced.execute c sql values).run (w, calls) =
      (((a.execute c sql values).run w).1, ((a.execute c sql values).run w).2,
        calls ++ [.executed c sql values (failure? ((a.execute c sql values).run w).1)]) := rfl

theorem run_traced_commit :
    (a.traced.commit c).run (w, calls) =
      (((a.commit c).run w).1, ((a.commit c).run w).2, calls ++ [.committed c (failure? ((a.commit c).run w).1)]) := rfl

theorem run_traced_rollback :
    (a.traced.rollback c).run (w, calls) =
      (((a.rollback c).run w).1, ((a.rollback c).run w).2,
        calls ++ [.rolledBack c (failure? ((a.rollback c).run w).1)]) := rfl

/-- The text of a statement with the marks that the database takes. -/
def spelling : Except Failure String := do styled s.sql (← Style.ofName? a.style)

/-- What the log says of a statement that is about to be executed. -/
def sendLine (sql : String) : LogLine := ⟨if echo then .info else .debug, sql ++ " " ++ (Value.tuple s.values).literal⟩

/-- What a caller sees of a failure. -/
def seen (e : Failure) : Failure :=
  match a.recognised? e with
  | none => e
  | some (code, message) => .queryFailed code message

/-- The state after the failure has been logged. Only the failures that are recognised are. -/
def afterFailure (e : Failure) : ω :=
  match a.recognised? e with
  | none => w
  | some (code, message) => a.log ⟨.debug, "query failed [" ++ code ++ "]: " ++ message⟩ w

theorem run_refuse (e : Failure) :
    (a.refuse e : Task ω α).run w = (.error (a.seen e), a.afterFailure w e) := by
  rw [refuse, seen, afterFailure]
  cases a.recognised? e <;> rfl

/-- A statement that cannot be spelled is not executed. -/
theorem run_send_of_error {e : Failure} (h : a.spelling s = .error e) :
    (a.send echo c s).run w = (.error e, w) := by
  rw [send, Task.run_bind, Task.run_ofExcept]
  cases hs : Style.ofName? a.style with
  | error e' =>
    rw [spelling, hs] at h
    cases h
    rfl
  | ok style =>
    rw [spelling, hs, Outcome.ok_bind] at h
    exact Task.run_bind_of_error (by rw [h]; rfl)

/-- A statement is executed, and then its rows are fetched. -/
theorem run_send {sql : String} (h : a.spelling s = .ok sql) :
    (a.send echo c s).run w =
      match (a.execute c sql s.values).run (a.log (sendLine echo s sql) w) with
      | (.error e, w') => (.error (a.seen e), a.afterFailure w' e)
      | (.ok cursor, w') => match cursor.rows with
        | .ok rows => (.ok rows, w')
        | .error e => (.error (a.seen e), a.afterFailure w' e) := by
  obtain ⟨style, hs, ht⟩ := Outcome.bind_eq_ok.1 h
  have hstyle : (Task.ofExcept (Style.ofName? a.style) : Task ω Style).run w = (.ok style, w) := by rw [hs]; rfl
  have hspelled : (Task.ofExcept (styled s.sql style) : Task ω String).run w = (.ok sql, w) := by rw [ht]; rfl
  have hnote : (a.note (sendLine echo s sql)).run w = (.ok (), a.log (sendLine echo s sql) w) := rfl
  rw [send, Task.run_bind_of_ok hstyle, Task.run_bind_of_ok hspelled]
  refine (Task.run_bind_of_ok hnote).trans ?_
  cases hx : (a.execute c sql s.values).run (a.log (sendLine echo s sql) w) with
  | mk outcome w' =>
    cases outcome with
    | error e =>
      have hfetch : (Task.attempt (do Task.ofExcept (← a.execute c sql s.values).rows)).run
          (a.log (sendLine echo s sql) w) = (.ok (.error e), w') := by
        rw [Task.run_attempt, Task.run_bind_of_error hx]
      exact (Task.run_bind_of_ok hfetch).trans (a.run_refuse w' e)
    | ok cursor =>
      have hfetch : (Task.attempt (do Task.ofExcept (← a.execute c sql s.values).rows)).run
          (a.log (sendLine echo s sql) w) = (.ok cursor.rows, w') := by
        rw [Task.run_attempt, Task.run_bind_of_ok hx, Task.run_ofExcept]
      refine (Task.run_bind_of_ok hfetch).trans ?_
      dsimp only
      cases cursor.rows with
      | error e => exact a.run_refuse w' e
      | ok rows => rfl

/-- The second adapter takes statements as the first does, and keeps a list beside the state to which it adds an entry
on each of them. -/
structure Records {ι : Type} (a : Adapter ω κ) (a' : Adapter (ω × List ι) κ)
    (entry : κ → String → List Value → Except Failure Cursor → ι) : Prop where
  style : a'.style = a.style
  describe : a'.describe = a.describe
  log (line : LogLine) (w : ω) (entries : List ι) : a'.log line (w, entries) = (a.log line w, entries)
  execute (c : κ) (sql : String) (values : List Value) :
    a'.execute c sql values = (a.execute c sql values).recorded (entry c sql values)

section Records

variable {ι : Type} {a : Adapter ω κ} {a' : Adapter (ω × List ι) κ}
  {entry : κ → String → List Value → Except Failure Cursor → ι} (r : Records a a' entry) (echo : Bool) (c : κ)
  {s : Statement} (w : ω) (entries : List ι)

include r

theorem Records.recognised?_eq (e : Failure) : a'.recognised? e = a.recognised? e := by
  rw [recognised?, recognised?, r.describe]

theorem Records.spelling_eq (s : Statement) : a'.spelling s = a.spelling s := by
  rw [spelling, spelling, r.style]

theorem Records.seen_eq (e : Failure) : a'.seen e = a.seen e := by
  rw [seen, seen, r.recognised?_eq]

theorem Records.afterFailure_eq (e : Failure) : a'.afterFailure (w, entries) e = (a.afterFailure w e, entries) := by
  rw [afterFailure, afterFailure, r.recognised?_eq]
  cases a.recognised? e with
  | none => rfl
  | some told => exact r.log _ w entries

theorem Records.run_send_of_error {e : Failure} (h : a.spelling s = .error e) :
    (a'.send echo c s).run (w, entries) =
      (((a.send echo c s).run w).1, ((a.send echo c s).run w).2, entries) := by
  rw [a.run_send_of_error echo c s w h, a'.run_send_of_error echo c s _ ((r.spelling_eq s).trans h)]

/-- Sending a statement adds one entry. -/
theorem Records.run_send {sql : String} (h : a.spelling s = .ok sql) :
    (a'.send echo c s).run (w, entries) =
      (((a.send echo c s).run w).1, ((a.send echo c s).run w).2, entries ++
        [entry c sql s.values ((a.execute c sql s.values).run (a.log (sendLine echo s sql) w)).1]) := by
  rw [a.run_send echo c s w h, a'.run_send echo c s _ ((r.spelling_eq s).trans h), r.execute, r.log, Task.run_recorded]
  cases (a.execute c sql s.values).run (a.log (sendLine echo s sql) w) with
  | mk outcome w' =>
    cases outcome with
    | error e =>
      dsimp only
      rw [r.seen_eq, r.afterFailure_eq]
    | ok cursor =>
      dsimp only
      cases cursor.rows with
      | error e =>
        dsimp only
        rw [r.seen_eq, r.afterFailure_eq]
      | ok rows => rfl

end Records

theorem records_traced :
    Records a a.traced fun c sql values outcome => .executed c sql values (failure? outcome) :=
  ⟨rfl, rfl, fun _ _ _ => rfl, fun _ _ _ => rfl⟩

/-- The calls that sending a statement makes. -/
def sendCalls : List (Call κ) :=
  match a.spelling s with
  | .error _ => []
  | .ok sql =>
    [.executed c sql s.values (failure? ((a.execute c sql s.values).run (a.log (sendLine echo s sql) w)).1)]

theorem run_traced_send :
    (a.traced.send echo c s).run (w, calls) =
      (((a.send echo c s).run w).1, ((a.send echo c s).run w).2, calls ++ a.sendCalls echo c s w) := by
  rw [sendCalls]
  cases h : a.spelling s with
  | error e => rw [a.records_traced.run_send_of_error echo c w calls h, List.append_nil]
  | ok sql => rw [a.records_traced.run_send echo c w calls h]

/-- Sending makes one call at most, and that executes the statement. -/
theorem sendCalls_cases :
    a.sendCalls echo c s w = [] ∨ ∃ sql failure, a.sendCalls echo c s w = [.executed c sql s.values failure] := by
  rw [sendCalls]
  cases a.spelling s with
  | error e => exact .inl rfl
  | ok sql => exact .inr ⟨sql, _, rfl⟩

/-- A statement that was sent well was executed. -/
theorem sendCalls_of_run_send {rows : List Row} {u : ω} (h : (a.send echo c s).run w = (.ok rows, u)) :
    ∃ sql, a.spelling s = .ok sql ∧ a.sendCalls echo c s w = [.executed c sql s.values none] := by
  rw [sendCalls]
  cases hs : a.spelling s with
  | error e =>
    rw [a.run_send_of_error echo c s w hs] at h
    cases h
  | ok sql =>
    rw [a.run_send echo c s w hs] at h
    cases hx : (a.execute c sql s.values).run (a.log (sendLine echo s sql) w) with
    | mk outcome w' =>
      rw [hx] at h
      cases outcome with
      | error e => cases h
      | ok cursor =>
        refine ⟨sql, rfl, ?_⟩
        dsimp only
        rw [hx]
        rfl

end Adapter

/-! ### Statements with their transaction -/

/-- The state of an engine with a list of calls beside the database. -/
def EngineState.traced {ω κ : Type} (g : EngineState ω κ) (calls : List (Adapter.Call κ)) :
    EngineState (ω × List (Adapter.Call κ)) κ := ⟨g.pool, g.database, calls⟩

namespace Engine

open Outcome (failure?)

variable {ω κ α : Type} (e : Engine ω κ) (s : Statement) (c : κ) (w : ω) (g : EngineState ω κ) (pool : Pool κ)
  (calls : List (Adapter.Call κ))

/-- The engine with a list of the calls of its database. -/
def traced : Engine (ω × List (Adapter.Call κ)) κ := ⟨e.settings, e.adapter.traced⟩

theorem run_transact :
    (e.transact s c).run w = match (e.adapter.send e.settings.echo c s).run w with
      | (.ok rows, u) => (((e.adapter.commit c).run u).1.map fun _ => rows, ((e.adapter.commit c).run u).2)
      | (.error f, u) =>
        if f.isIn .interrupt then (.error f, u)
        else (((e.adapter.rollback c).run u).1.bind fun _ => .error f, ((e.adapter.rollback c).run u).2) := by
  rw [transact, Task.run_bind_of_ok (Task.run_attempt w _)]
  cases hx : (e.adapter.send e.settings.echo c s).run w with
  | mk outcome u =>
    cases outcome with
    | ok rows =>
      dsimp only
      rw [Task.run_bind]
      cases hc : (e.adapter.commit c).run u with
      | mk ended v => cases ended <;> rfl
    | error f =>
      dsimp only
      by_cases hf : f.isIn .interrupt
      · simp [hf]
      · simp only [hf, Bool.not_false, if_true, Bool.false_eq_true, if_false]
        rw [Task.run_bind]
        cases hc : (e.adapter.rollback c).run u with
        | mk ended v => cases ended <;> rfl

/-- The calls that end the transaction of a statement. -/
def endCalls : List (Adapter.Call κ) :=
  match (e.adapter.send e.settings.echo c s).run w with
  | (.ok _, u) => [.committed c (failure? ((e.adapter.commit c).run u).1)]
  | (.error f, u) =>
    if f.isIn .interrupt then [] else [.rolledBack c (failure? ((e.adapter.rollback c).run u).1)]

theorem run_traced_transact :
    (e.traced.transact s c).run (w, calls) =
      (((e.transact s c).run w).1, ((e.transact s c).run w).2,
        calls ++ (e.adapter.sendCalls e.settings.echo c s w ++ e.endCalls s c w)) := by
  have hsend : (e.traced.adapter.send e.traced.settings.echo c s).run (w, calls) = _ :=
    e.adapter.run_traced_send e.settings.echo c s w calls
  rw [run_transact, run_transact, endCalls, hsend]
  cases hx : (e.adapter.send e.settings.echo c s).run w with
  | mk outcome u =>
    cases outcome with
    | ok rows =>
      have hcommit : (e.traced.adapter.commit c).run (u, calls ++ e.adapter.sendCalls e.settings.echo c s w) = _ :=
        e.adapter.run_traced_commit c u _
      dsimp only
      rw [hcommit, List.append_assoc]
    | error f =>
      have hrollback : (e.traced.adapter.rollback c).run (u, calls ++ e.adapter.sendCalls e.settings.echo c s w) = _ :=
        e.adapter.run_traced_rollback c u _
      dsimp only
      by_cases hf : f.isIn .interrupt
      · rw [if_pos hf, if_pos hf, if_pos hf, List.append_nil]
      · rw [if_neg hf, if_neg hf, if_neg hf, hrollback, List.append_assoc]

/-- What can become of a statement that is run with its transaction: its outcome, and the calls that it makes. -/
inductive Course (a : Adapter ω κ) (c : κ) (s : Statement) :
    Except Failure (List Row) → List (Adapter.Call κ) → Prop
  | committed (sql : String) (rows : List Row) (hs : a.spelling s = .ok sql) :
    Course a c s (.ok rows) [.executed c sql s.values none, .committed c none]
  | uncommitted (sql : String) (f : Failure) :
    Course a c s (.error f) [.executed c sql s.values none, .committed c (some f)]
  | undone (f : Failure) (hf : ¬ f.isIn .interrupt) (calls : List (Adapter.Call κ))
      (hcalls : calls = [] ∨ ∃ sql failure, calls = [.executed c sql s.values failure]) :
    Course a c s (.error f) (calls ++ [.rolledBack c none])
  | notUndone (f : Failure) (calls : List (Adapter.Call κ)) :
    Course a c s (.error f) (calls ++ [.rolledBack c (some f)])
  | interrupted (f : Failure) (hf : f.isIn .interrupt) (calls : List (Adapter.Call κ))
      (hcalls : calls = [] ∨ ∃ sql failure, calls = [.executed c sql s.values failure]) :
    Course a c s (.error f) calls

theorem course_of_transact :
    Course e.adapter c s ((e.transact s c).run w).1
      (e.adapter.sendCalls e.settings.echo c s w ++ e.endCalls s c w) := by
  have hsent := e.adapter.sendCalls_cases e.settings.echo c s w
  rw [run_transact, endCalls]
  cases hx : (e.adapter.send e.settings.echo c s).run w with
  | mk outcome u =>
    cases outcome with
    | ok rows =>
      obtain ⟨sql, hs, hcall⟩ := e.adapter.sendCalls_of_run_send e.settings.echo c s w hx
      rw [hcall]
      dsimp only
      cases (e.adapter.commit c).run u with
      | mk ended v => cases ended with
        | ok _ => exact .committed sql rows hs
        | error f => exact .uncommitted sql f
    | error f =>
      dsimp only
      by_cases hf : f.isIn .interrupt
      · rw [if_pos hf, if_pos hf, List.append_nil]
        exact .interrupted f hf _ hsent
      · rw [if_neg hf, if_neg hf]
        cases (e.adapter.rollback c).run u with
        | mk ended v => cases ended with
          | ok _ => exact .undone f hf _ hsent
          | error f' => exact .notUndone f' _

/-! ### Connections of the pool -/

theorem run_acquire_open :
    e.acquire.run ⟨some pool, w⟩ = match pool.take with
      | .ok (c, rest) => (.ok c, ⟨some rest, w⟩)
      | .error f => (.error f, ⟨some pool, w⟩) := by
  have hopen : e.openPool.run ⟨some pool, w⟩ = (.ok pool, ⟨some pool, w⟩) := rfl
  rw [acquire, Task.run_bind_of_ok hopen, Task.run_bind, Task.run_ofExcept]
  cases pool.take <;> rfl

theorem run_acquire_closed :
    e.acquire.run ⟨none, w⟩ = match (e.adapter.openAll e.settings).run w with
      | (.ok pool, u) => e.acquire.run ⟨some pool, u⟩
      | (.error f, u) => (.error f, ⟨none, u⟩) := by
  cases hx : (e.adapter.openAll e.settings).run w with
  | mk outcome u =>
    have hdatabase : (inDatabase (e.adapter.openAll e.settings) : Task (EngineState ω κ) (List κ)).run ⟨none, w⟩ =
        (outcome, ⟨none, u⟩) := by
      show (((e.adapter.openAll e.settings).run w).1, (⟨none, ((e.adapter.openAll e.settings).run w).2⟩ :
        EngineState ω κ)) = _
      rw [hx]
    cases outcome with
    | ok pool =>
      have hopen : e.openPool.run ⟨none, w⟩ = (.ok pool, ⟨some pool, u⟩) := Task.run_bind_of_ok hdatabase
      rw [acquire, Task.run_bind_of_ok hopen]
      rfl
    | error f =>
      have hopen : e.openPool.run ⟨none, w⟩ = (.error f, ⟨none, u⟩) := by
        rw [openPool, Task.run_bind_get]
        exact Task.run_bind_of_error hdatabase
      rw [acquire, Task.run_bind_of_error hopen]

/-- A connection that was taken came out of an open pool. -/
theorem pool_of_acquire {g h : EngineState ω κ} {c : κ} (hc : e.acquire.run g = (.ok c, h)) :
    ∃ rest, h.pool = some rest := by
  have hopen : ∀ pool w, e.acquire.run ⟨some pool, w⟩ = (.ok c, h) → ∃ rest, h.pool = some rest := by
    intro pool w hc
    rw [run_acquire_open] at hc
    cases ht : pool.take with
    | error f =>
      rw [ht] at hc
      cases hc
    | ok taken =>
      rw [ht] at hc
      cases hc
      exact ⟨_, rfl⟩
  obtain ⟨pool, w⟩ := g
  cases pool with
  | some pool => exact hopen pool w hc
  | none =>
    rw [run_acquire_closed] at hc
    cases hx : (e.adapter.openAll e.settings).run w with
    | mk outcome u =>
      rw [hx] at hc
      cases outcome with
      | ok pool => exact hopen pool u hc
      | error f => cases hc

/-- The connection is given back whatever comes of the statement. -/
theorem run_run :
    (e.run s).run g = match e.acquire.run g with
      | (.ok c, h) =>
        (((e.transact s c).run h.database).1, ⟨h.pool.map (·.put c), ((e.transact s c).run h.database).2⟩)
      | (.error f, h) => (.error f, h) := by
  rw [run, withConnection]
  cases hc : e.acquire.run g with
  | mk outcome h =>
    cases outcome with
    | error f => exact Task.run_bind_of_error hc
    | ok c =>
      obtain ⟨rest, hp⟩ := e.pool_of_acquire hc
      obtain ⟨_, w⟩ := h
      obtain rfl := hp
      have hwork : (inDatabase (e.transact s c) : Task (EngineState ω κ) (List Row)).run ⟨some rest, w⟩ =
          (((e.transact s c).run w).1, ⟨some rest, ((e.transact s c).run w).2⟩) := rfl
      rw [Task.run_bind_of_ok hc, Task.run_andThen, hwork]
      rfl

/-- The calls that taking a connection makes. -/
def acquireCalls : List (Adapter.Call κ) :=
  match g.pool with
  | some _ => []
  | none => [.opened ((e.adapter.openAll e.settings).run g.database).1]

theorem run_traced_acquire :
    e.traced.acquire.run (g.traced calls) =
      ((e.acquire.run g).1, (e.acquire.run g).2.traced (calls ++ e.acquireCalls g)) := by
  have hopen : ∀ pool w calls, e.traced.acquire.run ⟨some pool, w, calls⟩ =
      ((e.acquire.run ⟨some pool, w⟩).1, (e.acquire.run ⟨some pool, w⟩).2.traced calls) := by
    intro pool w calls
    rw [run_acquire_open, run_acquire_open]
    cases pool.take <;> rfl
  obtain ⟨pool, w⟩ := g
  cases pool with
  | some pool =>
    rw [acquireCalls, List.append_nil]
    exact hopen pool w calls
  | none =>
    have hcall : (e.traced.adapter.openAll e.traced.settings).run (w, calls) =
        (((e.adapter.openAll e.settings).run w).1, ((e.adapter.openAll e.settings).run w).2,
          calls ++ [.opened ((e.adapter.openAll e.settings).run w).1]) := rfl
    rw [EngineState.traced, run_acquire_closed, run_acquire_closed, acquireCalls, hcall]
    cases hx : (e.adapter.openAll e.settings).run w with
    | mk outcome u =>
      cases outcome with
      | ok pool => exact hopen pool u _
      | error f => rfl

/-- The calls that a statement makes on an engine, as its database gets them. -/
def callsOf : List (Adapter.Call κ) := ((e.traced.run s).run (g.traced [])).2.database.2

theorem run_traced_run :
    (e.traced.run s).run (g.traced calls) =
      (((e.run s).run g).1, ((e.run s).run g).2.traced (calls ++ (e.acquireCalls g ++
        match e.acquire.run g with
        | (.ok c, h) => e.adapter.sendCalls e.settings.echo c s h.database ++ e.endCalls s c h.database
        | (.error _, _) => []))) := by
  rw [run_run, run_run, run_traced_acquire]
  cases hc : e.acquire.run g with
  | mk outcome h =>
    cases outcome with
    | error f => simp
    | ok c =>
      dsimp only
      rw [EngineState.traced, run_traced_transact, List.append_assoc]
      rfl

theorem callsOf_eq :
    e.callsOf s g = e.acquireCalls g ++ match e.acquire.run g with
      | (.ok c, h) => e.adapter.sendCalls e.settings.echo c s h.database ++ e.endCalls s c h.database
      | (.error _, _) => [] := by
  rw [callsOf, run_traced_run]
  rfl

end Engine

end RecordSql
