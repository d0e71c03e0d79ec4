import Mathlib.Data.List.Perm.Basic
import RecordSql.Proofs.Database.Life

/-!
# Conservation of connections

Statements, sessions that are opened and operations of sessions, in any order on one engine: every connection that was
made is free in the pool, or held by one session that is not closed. `Service.places_next` says where a move puts the
connections. `Conserved` is the invariant, `Conserved.next` says that a move preserves it, and `Service.conserved_after`
follows for every run. A statement leaves an open pool as it found it, and ends its transaction once.
-/

namespace RecordSql

namespace Adapter

variable {κ : Type}

/-- The connections that calls have made. -/
def created (calls : List (Call κ)) : List κ :=
  calls.flatMap fun
    | .opened (.ok connections) => connections
    | _ => []

@[simp] theorem created_nil : created ([] : List (Call κ)) = [] := rfl

theorem created_append (first second : List (Call κ)) : created (first ++ second) = created first ++ created second :=
  List.flatMap_append

/-- A call on a connection that stays open. -/
def Call.IsWork : Call κ → Prop
  | .executed _ _ _ _ | .committed _ _ | .rolledBack _ _ => True
  | .opened _ | .closed _ _ => False

theorem created_of_work {calls : List (Call κ)} (h : ∀ x ∈ calls, x.IsWork) : created calls = [] := by
  refine List.flatMap_eq_nil_iff.2 fun x hx => ?_
  have hwork := h x hx
  cases x with
  | opened | closed => exact hwork.elim
  | _ => rfl

/-- The calls that commit or roll back. -/
def ends (calls : List (Call κ)) : List (Call κ) :=
  calls.filter fun
    | .committed _ _ | .rolledBack _ _ => true
    | _ => false

variable {ω : Type} (a : Adapter ω κ) (echo : Bool) (c : κ) (s : Statement) (w : ω)

theorem isWork_sendCalls : ∀ x ∈ a.sendCalls echo c s w, x.IsWork := by
  intro x hx
  rcases a.sendCalls_cases echo c s w with hnone | ⟨sql, failure, hone⟩
  · rw [hnone] at hx
    cases hx
  · rw [hone, List.mem_singleton] at hx
    rw [hx]
    trivial

theorem ends_sendCalls_append (calls : List (Call κ)) : ends (a.sendCalls echo c s w ++ calls) = ends calls := by
  rcases a.sendCalls_cases echo c s w with hnone | ⟨sql, failure, hone⟩
  · rw [hnone, List.nil_append]
  · rw [hone]
    rfl

end Adapter

open Adapter (created created_append ends)

/-! ### Statements on a pool -/

namespace Engine

variable {ω κ : Type} (e : Engine ω κ) (s : Statement) (w : ω) (g : EngineState ω κ)

/-- What can become of taking a connection out of a pool, which may be opened for it with the connections that were
made: the outcome, and the pool that is left. -/
inductive Taking (pool : Option (Pool κ)) (made : List κ) : Except Failure κ → Option (Pool κ) → Prop
  | taken (c : κ) (rest : Pool κ) (h : rest.put c = pool.getD [] ++ made) : Taking pool made (.ok c) (some rest)
  | exhausted (h : pool.getD [] ++ made = []) : Taking pool made (.error .poolExhausted) (some [])
  | unopened (f : Failure) (hp : pool = none) (hm : made = []) : Taking pool made (.error f) none

variable {e s w g} in
/-- A pool that has just been opened is like one that was open. -/
theorem Taking.opened {pool : Pool κ} {outcome : Except Failure κ} {left : Option (Pool κ)}
    (h : Taking (some pool) [] outcome left) : Taking none pool outcome left := by
  cases h with
  | taken c rest h => exact .taken c rest (by simpa using h)
  | exhausted h => exact .exhausted (by simpa using h)
  | unopened f hp hm => cases hp

theorem taking_of_open (pool : Pool κ) :
    Taking (some pool) [] (e.acquire.run ⟨some pool, w⟩).1 (e.acquire.run ⟨some pool, w⟩).2.pool := by
  rw [run_acquire_open]
  cases ht : pool.take with
  | ok taken => exact .taken taken.1 taken.2 (by simpa using Pool.put_of_take ht)
  | error f =>
    -- only an empty pool has no last connection
    cases hl : pool.getLast? with
    | some c => simp [Pool.take, hl] at ht
    | none =>
      obtain rfl := List.getLast?_eq_none_iff.1 hl
      cases ht
      exact .exhausted rfl

theorem taking_of_acquire :
    Taking g.pool (created (e.acquireCalls g)) (e.acquire.run g).1 (e.acquire.run g).2.pool := by
  obtain ⟨pool, w⟩ := g
  cases pool with
  | some pool => exact e.taking_of_open w pool
  | none =>
    rw [run_acquire_closed, acquireCalls]
    cases (e.adapter.openAll e.settings).run w with
    | mk outcome u => cases outcome with
      | error f => exact .unopened f rfl rfl
      | ok pool =>
        have hmade : created [.opened (.ok pool : Except Failure (List κ))] = pool := List.append_nil pool
        dsimp only
        rw [hmade]
        exact (e.taking_of_open u pool).opened

theorem isWork_endCalls (c : κ) : ∀ x ∈ e.endCalls s c w, x.IsWork := by
  intro x hx
  rw [endCalls] at hx
  cases hsend : (e.adapter.send e.settings.echo c s).run w with
  | mk outcome u =>
    rw [hsend] at hx
    cases outcome with
    | ok rows =>
      rw [List.mem_singleton.1 hx]
      trivial
    | error f =>
      dsimp only at hx
      split at hx
      · cases hx
      · rw [List.mem_singleton.1 hx]
        trivial

/-- A statement may open the pool, and then works on one connection. -/
theorem exists_callsOf_eq : ∃ work, e.callsOf s g = e.acquireCalls g ++ work ∧ ∀ x ∈ work, x.IsWork := by
  refine ⟨_, e.callsOf_eq s g, fun x hx => ?_⟩
  cases hc : e.acquire.run g with
  | mk outcome h =>
    rw [hc] at hx
    cases outcome with
    | error f => cases hx
    | ok c =>
      rcases List.mem_append.1 hx with hx | hx
      · exact e.adapter.isWork_sendCalls _ _ _ _ x hx
      · exact e.isWork_endCalls s _ c x hx

/-- All that a statement makes is made when its connection is taken. -/
theorem created_callsOf : created (e.callsOf s g) = created (e.acquireCalls g) := by
  obtain ⟨work, hwork, hisWork⟩ := e.exists_callsOf_eq s g
  rw [hwork, created_append, Adapter.created_of_work hisWork, List.append_nil]

/-- A statement leaves the connections that were there, and those that were made for it. -/
theorem pool_after_run :
    ((e.run s).run g).2.pool = some (g.pool.getD [] ++ created (e.acquireCalls g)) ∨
      ((e.run s).run g).2.pool = none ∧ g.pool = none ∧ created (e.acquireCalls g) = [] := by
  have h := e.taking_of_acquire g
  rw [run_run]
  cases hc : e.acquire.run g with
  | mk outcome g' =>
    obtain ⟨left, u⟩ := g'
    rw [hc] at h
    cases h with
    | taken c rest h => exact .inl (congrArg some h)
    | exhausted h => exact .inl (congrArg some h.symm)
    | unopened f hp hm => exact .inr ⟨rfl, hp, hm⟩

variable {e g}

/-- On an open pool no connection is made. -/
theorem acquireCalls_of_pool {pool : Pool κ} (hp : g.pool = some pool) : e.acquireCalls g = [] := by
  rw [acquireCalls, hp]

variable (e) in
/-- What a statement does to an open pool: it is as before; the transaction is ended once, by a commit if the statement
gave its rows, and else by rolling back, unless the program is to end. -/
structure LeavesPool (s : Statement) (g : EngineState ω κ) (pool : Pool κ) : Prop where
  unchanged : ((e.run s).run g).2.pool = some pool
  committed : ∀ c rest rows u, pool.take = .ok (c, rest) →
    (e.adapter.send e.settings.echo c s).run g.database = (.ok rows, u) →
    ∃ failure, ends (e.callsOf s g) = [.committed c failure]
  rolledBack : ∀ c rest f u, pool.take = .ok (c, rest) →
    (e.adapter.send e.settings.echo c s).run g.database = (.error f, u) → ¬ f.isIn .interrupt →
    ∃ failure, ends (e.callsOf s g) = [.rolledBack c failure]

theorem ends_callsOf {pool rest : Pool κ} {c : κ} (hp : g.pool = some pool) (ht : pool.take = .ok (c, rest)) :
    ends (e.callsOf s g) = ends (e.endCalls s c g.database) := by
  obtain ⟨_, w⟩ := g
  obtain rfl := hp
  rw [callsOf_eq, acquireCalls_of_pool rfl, run_acquire_open, ht, List.nil_append]
  exact e.adapter.ends_sendCalls_append e.settings.echo c s w _

theorem leavesPool {pool : Pool κ} (hp : g.pool = some pool) : e.LeavesPool s g pool := by
  refine ⟨?_, fun c rest rows u ht hsend => ?_, fun c rest f u ht hsend hf => ?_⟩
  · rcases e.pool_after_run s g with hpool | ⟨-, hnone, -⟩
    · rw [hpool, acquireCalls_of_pool hp, hp]
      simp
    · rw [hp] at hnone
      cases hnone
  · rw [ends_callsOf s hp ht, endCalls, hsend]
    exact ⟨_, rfl⟩
  · rw [ends_callsOf s hp ht, endCalls, hsend]
    dsimp only
    rw [if_neg hf]
    exact ⟨_, rfl⟩

end Engine

/-! ### Sessions -/

namespace Session

variable {ω κ : Type} (e : Engine ω κ) (t : SessionState ω κ) (g : EngineState ω κ)

/-- The connection of a session that is not closed. -/
def holds (s : Session κ) : List κ := if s.phase = .closed then [] else [s.connection]

/-- The calls that opening a session makes, as its database gets them. -/
def startCalls : List (Adapter.Call κ) := ((start e.traced).run (g.traced [])).2.database.2

theorem run_start :
    (start e).run g = ((e.acquire.run g).1.map fun c => ⟨c, .idle, []⟩, (e.acquire.run g).2) := by
  rw [start, Task.run_bind]
  cases e.acquire.run g with
  | mk outcome h => cases outcome <;> rfl

theorem startCalls_eq : startCalls e g = e.acquireCalls g := by
  rw [startCalls, run_start, Engine.run_traced_acquire]
  rfl

theorem Act.Course.isWork {s s' : Session κ} {pool pool' : Option (Pool κ)} {d : Deed κ}
    (h : Act.Course s pool d s' pool') : ∀ x ∈ d.calls, x.IsWork := by
  intro x hx
  cases h with
  | statement st outcome calls hp hcalls =>
    rcases hcalls x hx with ⟨sql, failure, rfl⟩ | ⟨-, failure, rfl⟩ <;> trivial
  | failed ctl f hr | done ctl hr =>
    rw [List.mem_singleton.1 hx]
    trivial
  | _ => cases hx

theorem isWork_deedsOf (acts : List Act) : ∀ x ∈ (deedsOf e t acts).flatMap Deed.calls, x.IsWork := by
  induction acts generalizing t with
  | nil => simp [deedsOf]
  | cons a rest ih =>
    intro x hx
    rw [deedsOf, List.flatMap_cons, List.mem_append] at hx
    exact hx.elim ((a.course e t).isWork x) (ih _ x)

/-- A session only works on its connection. -/
theorem isWork_journal (o : Operation) : ∀ x ∈ journal e t [o], x.IsWork := by
  rw [journal_eq, deeds, deeds, List.append_nil]
  exact isWork_deedsOf e t (o.acts e t)

variable {e t} in
/-- Closing an open session moves its connection into the pool, or loses it if there is no pool. -/
theorem places_operation (o : Operation) :
    ((o.next e t).engine.pool.getD [] ++ (o.next e t).session.holds ++
        if o.Closes ∧ t.engine.pool.isNone then t.session.holds else []).Perm
      (t.engine.pool.getD [] ++ t.session.holds) := by
  have hclosed := o.closed_iff e t
  have hpool := o.next_pool (e := e) (t := t)
  have hconnection := o.next_connection (e := e) (t := t)
  generalize o.next e t = t' at hclosed hpool hconnection
  by_cases hp : t.session.phase = .closed
  · rw [if_neg fun h => h.2 hp] at hpool
    rw [hpool, holds, holds, if_pos (hclosed.2 (.inl hp)), if_pos hp, ite_self, List.append_nil]
  · by_cases ho : o.Closes
    · rw [if_pos ⟨ho, hp⟩] at hpool
      rw [hpool, holds, holds, if_pos (hclosed.2 (.inr ho)), if_neg hp, List.append_nil]
      cases t.engine.pool with
      | none => simp [ho]
      | some free => simp [Pool.put]
    · rw [if_neg fun h => ho h.1] at hpool
      rw [hpool, holds, holds, if_neg fun h => (hclosed.1 h).elim hp ho, if_neg hp, hconnection,
        if_neg fun h => ho h.1, List.append_nil]

end Session

/-! ### Services -/

/-- An engine with the sessions that were opened on it, the latest last. -/
structure Service (ω κ : Type) where
  engine : EngineState ω κ
  sessions : List (Session κ)

/-- What can be done on an engine: a statement is run, a session is opened, or one of the sessions does something. -/
inductive Move
  | run (s : Statement)
  | start
  | operate (index : Nat) (o : Session.Operation)

namespace Service

variable {ω κ α : Type} (e : Engine ω κ) (m : Move) (svc : Service ω κ)

/-- Does a task on the engine. -/
def inEngine (task : Task (EngineState ω κ) α) : Task (Service ω κ) α := fun svc =>
  let (outcome, engine) := task.run svc.engine
  (outcome, { svc with engine := engine })

/-- Nothing has been opened yet. -/
def fresh (w : ω) : Service ω κ := ⟨⟨none, w⟩, []⟩

/-- The free connections. -/
def free : Pool κ := svc.engine.pool.getD []

/-- The connections of the sessions that are not closed. -/
def held : List κ := svc.sessions.flatMap Session.holds

end Service

namespace Move

variable {ω κ : Type} (e : Engine ω κ) (m : Move) (svc : Service ω κ)

def task : Move → Task (Service ω κ) Unit
  | .run s => discard (Service.inEngine (e.run s))
  | .start => do
    let session ← Service.inEngine (Session.start e)
    modify fun svc => { svc with sessions := svc.sessions ++ [session] }
  | .operate index o => fun svc => match svc.sessions[index]? with
    | none => (.ok (), svc)
    | some session =>
      let (outcome, t) := (o.task e).run ⟨session, svc.engine⟩
      (outcome, ⟨t.engine, svc.sessions.set index t.session⟩)

/-- The state that a move leads to, whatever comes of it. -/
def next : Service ω κ := ((m.task e).run svc).2

/-- The calls that a move makes. -/
def calls : Move → List (Adapter.Call κ)
  | .run s => e.callsOf s svc.engine
  | .start => Session.startCalls e svc.engine
  | .operate index o => match svc.sessions[index]? with
    | none => []
    | some session => Session.journal e ⟨session, svc.engine⟩ [o]

/-- The move takes a connection out of the pool. -/
def Takes : Move → Prop
  | .run _ | .start => True
  | .operate _ _ => False

/-- The connection of a session that a move closes while there is no pool to take it. -/
def loses (svc : Service ω κ) : Move → List κ
  | .operate index o => match svc.sessions[index]? with
    | none => []
    | some session => if o.Closes ∧ svc.engine.pool.isNone then session.holds else []
  | .run _ | .start => []

theorem run_task_run (s : Statement) :
    ((run s).task e).run svc =
      (((e.run s).run svc.engine).1.map fun _ => (), { svc with engine := ((e.run s).run svc.engine).2 }) :=
  Task.run_discard svc _

theorem run_task_start :
    (start.task e).run svc = match e.acquire.run svc.engine with
      | (.ok c, g) => (.ok (), ⟨g, svc.sessions ++ [⟨c, .idle, []⟩]⟩)
      | (.error f, g) => (.error f, { svc with engine := g }) := by
  have hstart : (Service.inEngine (Session.start e)).run svc =
      (((Session.start e).run svc.engine).1, { svc with engine := ((Session.start e).run svc.engine).2 }) := rfl
  rw [task, Task.run_bind, hstart, Session.run_start]
  cases e.acquire.run svc.engine with
  | mk outcome g => cases outcome <;> rfl

theorem run_task_operate (index : Nat) (o : Session.Operation) :
    ((operate index o).task e).run svc = match svc.sessions[index]? with
      | none => (.ok (), svc)
      | some session => (((o.task e).run ⟨session, svc.engine⟩).1,
          ⟨(o.next e ⟨session, svc.engine⟩).engine,
            svc.sessions.set index (o.next e ⟨session, svc.engine⟩).session⟩) := by
  show (match svc.sessions[index]? with
    | none => ((.ok (), svc) : Except Failure Unit × Service ω κ)
    | some session => _) = _
  cases svc.sessions[index]? <;> rfl

end Move

/-! ### Where the connections are -/

namespace Service

variable {ω κ : Type} {e : Engine ω κ} {svc : Service ω κ} {made : List κ}

/-- Connections that are made are free at first. -/
theorem perm_made (svc : Service ω κ) (made : List κ) :
    ((svc.free ++ made) ++ svc.held).Perm (svc.free ++ svc.held ++ made) := by
  rw [List.append_assoc, List.append_assoc]
  exact List.perm_append_comm.append_left svc.free

theorem places_run (s : Statement) :
    (((Move.run s).next e svc).free ++ ((Move.run s).next e svc).held).Perm
      (svc.free ++ svc.held ++ created ((Move.run s).calls e svc)) := by
  rw [Move.next, Move.run_task_run, Move.calls, e.created_callsOf]
  rcases e.pool_after_run s svc.engine with hpool | ⟨hpool, hnone, hmade⟩
  · rw [free, hpool]
    exact svc.perm_made _
  · rw [hmade, List.append_nil, free, hpool, free, hnone]
    exact .refl _

theorem places_start :
    ((Move.start.next e svc).free ++ (Move.start.next e svc).held).Perm
      (svc.free ++ svc.held ++ created (Move.start.calls e svc)) := by
  have htaking := e.taking_of_acquire svc.engine
  have hmade := svc.perm_made (created (e.acquireCalls svc.engine))
  rw [Move.next, Move.run_task_start, Move.calls, Session.startCalls_eq]
  cases hc : e.acquire.run svc.engine with
  | mk outcome g =>
    obtain ⟨left, w⟩ := g
    rw [hc] at htaking
    generalize created (e.acquireCalls svc.engine) = more at htaking hmade ⊢
    cases htaking with
    | taken c rest hrest =>
      have hheld : held ⟨⟨some rest, w⟩, svc.sessions ++ [⟨c, .idle, []⟩]⟩ = svc.held ++ [c] := by
        simp [held, Session.holds]
      dsimp only
      rw [hheld]
      -- the session holds what was the last of the free connections
      calc (rest ++ (svc.held ++ [c])).Perm (rest ++ ([c] ++ svc.held)) := List.perm_append_comm.append_left rest
        _ = (svc.free ++ more) ++ svc.held := by
          rw [← List.append_assoc]
          exact congrArg (· ++ svc.held) hrest
        _ |>.Perm (svc.free ++ svc.held ++ more) := hmade
    | exhausted hnone =>
      rw [show svc.free ++ more = [] from hnone] at hmade
      exact hmade
    | unopened f hp hm =>
      have hfree : svc.free = [] := by rw [free, hp]; rfl
      rw [hm, hfree]
      exact .of_eq (List.append_nil _).symm

theorem places_operate (index : Nat) (o : Session.Operation) :
    (((Move.operate index o).next e svc).free ++ ((Move.operate index o).next e svc).held ++
        (Move.operate index o).loses svc).Perm
      (svc.free ++ svc.held ++ created ((Move.operate index o).calls e svc)) := by
  rw [Move.next, Move.run_task_operate, Move.calls, Move.loses]
  cases hs : svc.sessions[index]? with
  | none => exact .refl _
  | some session =>
    obtain ⟨hindex, hsession⟩ := List.getElem?_eq_some_iff.1 hs
    have hplaces := Session.places_operation (e := e) (t := ⟨session, svc.engine⟩) o
    dsimp only at hplaces ⊢
    rw [Adapter.created_of_work (Session.isWork_journal e _ o), List.append_nil]
    generalize o.next e ⟨session, svc.engine⟩ = t at hplaces ⊢
    generalize (if o.Closes ∧ svc.engine.pool.isNone then session.holds else []) = lost at hplaces ⊢
    let others := (svc.sessions.eraseIdx index).flatMap Session.holds
    have hbefore : (session.holds ++ others).Perm svc.held := by
      have hperm := List.getElem_cons_eraseIdx_perm hindex
      rw [hsession] at hperm
      exact hperm.flatMap_right _
    have hafter : ((svc.sessions.set index t.session).flatMap Session.holds).Perm (t.session.holds ++ others) :=
      (List.set_perm_cons_eraseIdx hindex t.session).flatMap_right _
    calc (t.engine.pool.getD [] ++ (svc.sessions.set index t.session).flatMap Session.holds ++ lost).Perm
          (t.engine.pool.getD [] ++ (t.session.holds ++ others) ++ lost) := (hafter.append_left _).append_right _
      _ |>.Perm ((t.engine.pool.getD [] ++ t.session.holds ++ lost) ++ others) := by
        simp only [List.append_assoc]
        exact (List.perm_append_comm.append_left _).append_left _
      _ |>.Perm ((svc.free ++ session.holds) ++ others) := hplaces.append_right _
      _ = svc.free ++ (session.holds ++ others) := List.append_assoc ..
      _ |>.Perm (svc.free ++ svc.held) := hbefore.append_left _

variable (e svc) in
/-- What a move leaves free or held, or loses, was free or held before, or the move has made it. -/
theorem places_next (m : Move) :
    ((m.next e svc).free ++ (m.next e svc).held ++ m.loses svc).Perm
      (svc.free ++ svc.held ++ created (m.calls e svc)) := by
  cases m with
  | run s =>
    rw [Move.loses, List.append_nil]
    exact places_run s
  | start =>
    rw [Move.loses, List.append_nil]
    exact places_start
  | operate index o => exact places_operate index o

/-- A pool that is not open after a move was not open before. -/
theorem unopened_next {m : Move} (h : (m.next e svc).engine.pool = none) :
    svc.engine.pool = none ∧ created (m.calls e svc) = [] := by
  cases m with
  | run s =>
    rw [Move.next, Move.run_task_run] at h
    rw [Move.calls, e.created_callsOf]
    rcases e.pool_after_run s svc.engine with hpool | ⟨-, hnone, hmade⟩
    · rw [hpool] at h
      cases h
    · exact ⟨hnone, hmade⟩
  | start =>
    have htaking := e.taking_of_acquire svc.engine
    rw [Move.next, Move.run_task_start] at h
    rw [Move.calls, Session.startCalls_eq]
    cases hc : e.acquire.run svc.engine with
    | mk outcome g =>
      obtain ⟨left, w⟩ := g
      rw [hc] at htaking h
      cases htaking with
      | unopened f hp hm => exact ⟨hp, hm⟩
      | _ => cases h
  | operate index o =>
    rw [Move.next, Move.run_task_operate] at h
    rw [Move.calls]
    cases hs : svc.sessions[index]? with
    | none =>
      rw [hs] at h
      exact ⟨h, rfl⟩
    | some session =>
      rw [hs] at h
      have hpool := o.next_pool (e := e) (t := ⟨session, svc.engine⟩)
      rw [show (o.next e ⟨session, svc.engine⟩).engine.pool = none from h] at hpool
      refine ⟨?_, Adapter.created_of_work (Session.isWork_journal e _ o)⟩
      split at hpool
      · exact Option.map_eq_none_iff.1 hpool.symm
      · exact hpool.symm

theorem savepoints_next (h : ∀ s ∈ svc.sessions, s.phase = .idle → s.savepoints = []) (m : Move) :
    ∀ s ∈ (m.next e svc).sessions, s.phase = .idle → s.savepoints = [] := by
  intro s hs
  cases m with
  | run st =>
    rw [Move.next, Move.run_task_run] at hs
    exact h s hs
  | start =>
    rw [Move.next, Move.run_task_start] at hs
    cases hc : e.acquire.run svc.engine with
    | mk outcome g =>
      rw [hc] at hs
      cases outcome with
      | error f => exact h s hs
      | ok c =>
        rcases List.mem_append.1 hs with hs | hs
        · exact h s hs
        · rw [List.mem_singleton.1 hs]
          exact fun _ => rfl
  | operate index o =>
    rw [Move.next, Move.run_task_operate] at hs
    cases hsession : svc.sessions[index]? with
    | none =>
      rw [hsession] at hs
      exact h s hs
    | some session =>
      rw [hsession] at hs
      rcases List.mem_or_eq_of_mem_set hs with hold | rfl
      · exact h s hold
      · rw [o.next_eq]
        exact Session.savepoints_afterActs (h session (List.mem_of_getElem? hsession)) _

/-- Every connection that was made is in one place: free, or with one session that is not closed. -/
structure Conserved (svc : Service ω κ) (made : List κ) : Prop where
  places : (svc.free ++ svc.held).Perm made
  unopened : svc.engine.pool = none → made = []
  savepoints : ∀ s ∈ svc.sessions, s.phase = .idle → s.savepoints = []

theorem conserved_fresh (w : ω) : (fresh w : Service ω κ).Conserved [] :=
  ⟨.refl _, fun _ => rfl, by simp [fresh]⟩

/-- While a session is open, so is the pool. -/
theorem Conserved.pool_of_open (h : svc.Conserved made) {s : Session κ} (hs : s ∈ svc.sessions)
    (hp : s.phase ≠ .closed) : svc.engine.pool = some svc.free := by
  cases hpool : svc.engine.pool with
  | some pool => rw [free, hpool]; rfl
  | none =>
    have hplaces := h.places
    rw [h.unopened hpool, List.perm_nil, List.append_eq_nil_iff] at hplaces
    have hnone := List.flatMap_eq_nil_iff.1 hplaces.2 s hs
    rw [Session.holds, if_neg hp] at hnone
    cases hnone

theorem Conserved.loses_eq_nil (h : svc.Conserved made) (m : Move) : m.loses svc = [] := by
  cases m with
  | operate index o =>
    rw [Move.loses]
    cases hs : svc.sessions[index]? with
    | none => rfl
    | some session =>
      dsimp only
      by_cases hp : session.phase = .closed
      · rw [Session.holds, if_pos hp, ite_self]
      · rw [h.pool_of_open (List.mem_of_getElem? hs) hp]
        exact if_neg fun hnone => by cases hnone.2
  | _ => rfl

theorem Conserved.next (h : svc.Conserved made) (m : Move) :
    (m.next e svc).Conserved (made ++ created (m.calls e svc)) := by
  refine ⟨?_, fun hnone => ?_, savepoints_next h.savepoints m⟩
  · have hplaces := places_next e svc m
    rw [h.loses_eq_nil, List.append_nil] at hplaces
    exact hplaces.trans (h.places.append_right _)
  · obtain ⟨hpool, hmade⟩ := unopened_next hnone
    rw [h.unopened hpool, hmade]
    rfl

/-- The state that moves lead to, whatever comes of each. -/
def after (e : Engine ω κ) (moves : List Move) (svc : Service ω κ) : Service ω κ :=
  moves.foldl (fun svc m => m.next e svc) svc

/-- The calls that moves make, in order. -/
def journal (e : Engine ω κ) (svc : Service ω κ) : List Move → List (Adapter.Call κ)
  | [] => []
  | m :: rest => m.calls e svc ++ journal e (m.next e svc) rest

theorem Conserved.after (h : svc.Conserved made) (moves : List Move) :
    (after e moves svc).Conserved (made ++ created (journal e svc moves)) := by
  induction moves generalizing svc made with
  | nil => simpa [Service.after, journal] using h
  | cons m rest ih =>
    rw [journal, created_append, ← List.append_assoc]
    exact ih (h.next m)

/-- From an empty pool nothing can be taken, and the attempt changes nothing. -/
theorem run_of_exhausted (hpool : svc.engine.pool = some []) {m : Move} (hm : m.Takes) :
    (m.task e).run svc = (.error .poolExhausted, svc) ∧ m.calls e svc = [] := by
  obtain ⟨⟨_, w⟩, sessions⟩ := svc
  obtain rfl := hpool
  have hacquire : e.acquire.run ⟨some [], w⟩ = (.error .poolExhausted, ⟨some [], w⟩) := rfl
  cases m with
  | run s =>
    have hrun : (e.run s).run ⟨some [], w⟩ = (.error .poolExhausted, ⟨some [], w⟩) := by
      rw [Engine.run_run, hacquire]
    rw [Move.run_task_run, Move.calls, Engine.callsOf_eq, hrun, hacquire]
    exact ⟨rfl, rfl⟩
  | start =>
    rw [Move.run_task_start, Move.calls, Session.startCalls_eq, hacquire]
    exact ⟨rfl, rfl⟩
  | operate index o => exact hm.elim

/-- Whatever is done on an engine, in any order and with whatever failures: the connections that were made are those
that are free and those of the sessions that are not closed, each in one place. A statement leaves an open pool as it
was, and commits once or rolls back once; and from a pool that is exhausted nothing is taken, and nothing changes. -/
theorem conserved_after (e : Engine ω κ) (w : ω) (moves : List Move) :
    let svc := Service.after e moves (fresh w)
    (svc.free ++ svc.held).Perm (created (journal e (fresh w) moves)) ∧
    ∀ pool, svc.engine.pool = some pool →
      (∀ s, e.LeavesPool s svc.engine pool) ∧
      (pool = [] → ∀ m : Move, m.Takes →
        (m.task e).run svc = (.error .poolExhausted, svc) ∧ m.calls e svc = []) := by
  intro svc
  refine ⟨((conserved_fresh w).after moves).places, fun pool hpool => ⟨fun s => Engine.leavesPool s hpool, ?_⟩⟩
  rintro rfl m hm
  exact run_of_exhausted hpool hm

end Service

end RecordSql

namespace RecordSql.Rehearsal

open Service (fresh after journal)

/-- The only connection is with a session while it is in a transaction, so that a statement finds the pool exhausted.
After the COMMIT and the ROLLBACK of the session have failed the connection is free, and the statement leaves it
there. -/
theorem conserved_after_busy :
    let w := Stage.empty.rehearse ⟨[], [.ok .silent, .error busy, .error busy], none, none, none⟩
    let before : List Move := [.start, .operate 0 (.control .begin)]
    let moves := before ++ [.operate 0 (.leave false)]
    let held := after solo before (fresh w)
    let svc := after solo moves (fresh w)
    held.engine.pool = some [] ∧ (held.free ++ held.held).Perm [1] ∧
    ((Move.run (addUser "Ann")).task solo).run held = (.error .poolExhausted, held) ∧
    svc.engine.pool = some [1] ∧ (svc.free ++ svc.held).Perm [1] ∧
    ((solo.run (addUser "Ann")).run svc.engine).2.pool = some [1] ∧
    ∃ failure, Adapter.ends (solo.callsOf (addUser "Ann") svc.engine) = [.committed 1 failure] := by
  intro w before moves held svc
  have hheld : held.engine.pool = some [] := rfl
  have hpool : svc.engine.pool = some [1] := rfl
  have hmade : Adapter.created (journal solo (fresh w) before) = [1] := rfl
  have hmade' : Adapter.created (journal solo (fresh w) moves) = [1] := rfl
  have htake : Pool.take [1] = .ok (1, []) := rfl
  have hsend : (solo.adapter.send solo.settings.echo 1 (addUser "Ann")).run svc.engine.database = (.ok [], _) := rfl
  obtain ⟨hplaces, hexhausted⟩ := Service.conserved_after solo w before
  obtain ⟨hplaces', hopen⟩ := Service.conserved_after solo w moves
  have hleaves := (hopen [1] hpool).1 (addUser "Ann")
  rw [hmade] at hplaces
  rw [hmade'] at hplaces'
  exact ⟨hheld, hplaces, ((hexhausted [] hheld).2 rfl (.run (addUser "Ann")) trivial).1, hpool, hplaces',
    hleaves.unchanged, hleaves.committed 1 [] [] _ htake hsend⟩

end RecordSql.Rehearsal
