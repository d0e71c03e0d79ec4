import RecordSql.Proofs.Database.Conservation
import RecordSql.Proofs.Database.Exposure

/-!
# Sessions that outlive their pool

The pool of an engine can be closed while sessions hold connections of it, and be opened again before they give them
back. A session that is closed gives its connection to the pool that is open then. If there is none the caller sees a
failure, and the connection is lost; if the pool was opened again the connection gets among those of another pool.

* `Chronicle.Placed.after`: every connection that was made is free, held, closed or lost.
* `Chronicle.closed_cleanly_iff`: sessions are closed cleanly exactly if each is while the pool that its connection
  belongs to is open.
-/

namespace RecordSql

open Adapter (created created_append)

/-! ### Calls -/

namespace Adapter

variable {ω κ : Type}

/-- How a call failed, if it did. -/
def Call.failure? : Call κ → Option Failure
  | .opened outcome => Outcome.failure? outcome
  | .executed _ _ _ failure | .committed _ failure | .rolledBack _ failure | .closed _ failure => failure

/-- The connections of each pool that calls have opened. -/
def openings (calls : List (Call κ)) : List (List κ) :=
  calls.filterMap fun
    | .opened (.ok connections) => some connections
    | _ => none

/-- The connections of the pool that was opened last. -/
def latest (calls : List (Call κ)) : List κ := (openings calls).getLast?.getD []

/-- The connections that calls have closed. -/
def retired (calls : List (Call κ)) : List κ :=
  calls.filterMap fun
    | .closed c none => some c
    | _ => none

variable {calls more : List (Call κ)}

theorem openings_append (calls more : List (Call κ)) : openings (calls ++ more) = openings calls ++ openings more :=
  List.filterMap_append

theorem retired_append (calls more : List (Call κ)) : retired (calls ++ more) = retired calls ++ retired more :=
  List.filterMap_append

theorem latest_append_of_singleton {cs : List κ} (h : openings more = [cs]) : latest (calls ++ more) = cs := by
  rw [latest, openings_append, h, List.getLast?_concat]
  rfl

theorem latest_append_of_work (h : ∀ x ∈ more, x.IsWork) : latest (calls ++ more) = latest calls := by
  have hnone : openings more = [] := by
    refine List.filterMap_eq_nil_iff.2 fun x hx => ?_
    have hwork := h x hx
    cases x with
    | opened | closed => exact hwork.elim
    | _ => rfl
  rw [latest, openings_append, hnone, List.append_nil, latest]

theorem retired_of_work (h : ∀ x ∈ calls, x.IsWork) : retired calls = [] := by
  refine List.filterMap_eq_nil_iff.2 fun x hx => ?_
  have hwork := h x hx
  cases x with
  | opened | closed => exact hwork.elim
  | _ => rfl

variable (a : Adapter ω κ) (c : κ) (w : ω)

/-- The calls of closing connections in order. The first that cannot be closed is the last that is tried. -/
def closeAllCalls (a : Adapter ω κ) : List κ → ω → List (Call κ)
  | [], _ => []
  | c :: rest, w => match (a.close c).run w with
    | (.ok _, u) => .closed c none :: a.closeAllCalls rest u
    | (.error f, _) => [.closed c (some f)]

theorem run_closeAll_cons (rest : List κ) :
    (a.closeAll (c :: rest)).run w = match (a.close c).run w with
      | (.ok _, u) => (a.closeAll rest).run u
      | (.error f, u) => (.error f, u) := by
  refine (Task.run_bind w (a.close c) fun _ => a.closeAll rest).trans ?_
  cases (a.close c).run w with
  | mk outcome u => cases outcome <;> rfl

theorem run_traced_closeAll (cs : List κ) (w : ω) (calls : List (Call κ)) :
    (a.traced.closeAll cs).run (w, calls) =
      (((a.closeAll cs).run w).1, ((a.closeAll cs).run w).2, calls ++ a.closeAllCalls cs w) := by
  induction cs generalizing w calls with
  | nil =>
    rw [closeAllCalls, List.append_nil]
    rfl
  | cons c rest ih =>
    have hclose : (a.traced.close c).run (w, calls) = (((a.close c).run w).1, ((a.close c).run w).2,
        calls ++ [.closed c (Outcome.failure? ((a.close c).run w).1)]) := rfl
    rw [run_closeAll_cons, run_closeAll_cons, closeAllCalls, hclose]
    cases (a.close c).run w with
    | mk outcome u => cases outcome with
      | error f => rfl
      | ok done =>
        dsimp only
        rw [ih, List.append_assoc]
        rfl

/-- If no call fails, all connections are closed. -/
theorem closeAll_of_succeeded {cs : List κ} {w : ω} (h : ∀ x ∈ a.closeAllCalls cs w, x.failure? = none) :
    a.closeAllCalls cs w = cs.map (.closed · none) ∧ ((a.closeAll cs).run w).1 = .ok () := by
  induction cs generalizing w with
  | nil => exact ⟨rfl, rfl⟩
  | cons c rest ih =>
    rw [closeAllCalls] at h ⊢
    rw [run_closeAll_cons]
    cases hc : (a.close c).run w with
    | mk outcome u =>
      rw [hc] at h
      cases outcome with
      | error f => cases h _ (List.mem_singleton_self _)
      | ok done =>
        obtain ⟨hcalls, hok⟩ := ih fun x hx => h x (List.mem_cons_of_mem _ hx)
        dsimp only
        rw [hcalls]
        exact ⟨rfl, hok⟩

end Adapter

open Adapter (openings latest retired retired_append)

/-! ### Pools that are opened and closed -/

namespace Engine

variable {ω κ : Type} (e : Engine ω κ) (g : EngineState ω κ)

theorem run_closePool :
    e.closePool.run g = match g.pool with
      | none => (.ok (), g)
      | some pool => match (e.adapter.closeAll pool).run g.database with
        | (.ok _, w) => (.ok (), ⟨none, w⟩)
        | (.error f, w) => (.error f, ⟨some pool, w⟩) := by
  obtain ⟨pool, w⟩ := g
  rw [closePool, Task.run_bind_get]
  cases pool with
  | none => rfl
  | some pool =>
    have hdatabase : (inDatabase (e.adapter.closeAll pool) : Task (EngineState ω κ) Unit).run ⟨some pool, w⟩ =
        (((e.adapter.closeAll pool).run w).1, ⟨some pool, ((e.adapter.closeAll pool).run w).2⟩) := rfl
    dsimp only
    rw [Task.run_bind, hdatabase]
    cases (e.adapter.closeAll pool).run w with
    | mk outcome u => cases outcome <;> rfl

/-- The calls that closing the pool makes, as its database gets them. -/
def closeCalls : List (Adapter.Call κ) := (e.traced.closePool.run (g.traced [])).2.database.2

theorem closeCalls_eq :
    e.closeCalls g = match g.pool with
      | none => []
      | some pool => e.adapter.closeAllCalls pool g.database := by
  obtain ⟨pool, w⟩ := g
  rw [closeCalls, run_closePool]
  cases pool with
  | none => rfl
  | some pool =>
    have hclose : (e.traced.adapter.closeAll pool).run (w, []) = _ := e.adapter.run_traced_closeAll pool w []
    rw [EngineState.traced]
    dsimp only
    rw [hclose]
    cases (e.adapter.closeAll pool).run w with
    | mk outcome u => cases outcome <;> rfl

variable {e g}

/-- If no call fails, the pool is closed, and so are the connections that were in it. -/
theorem closePool_of_succeeded (h : ∀ x ∈ e.closeCalls g, x.failure? = none) :
    e.closeCalls g = (g.pool.getD []).map (.closed · none) ∧ (e.closePool.run g).2.pool = none := by
  rw [closeCalls_eq] at h ⊢
  rw [run_closePool]
  cases hpool : g.pool with
  | none => exact ⟨rfl, hpool⟩
  | some pool =>
    rw [hpool] at h
    obtain ⟨hcalls, hok⟩ := e.adapter.closeAll_of_succeeded h
    refine ⟨hcalls, ?_⟩
    cases hclose : (e.adapter.closeAll pool).run g.database with
    | mk outcome u =>
      rw [hclose] at hok
      obtain rfl := hok
      dsimp only
      rw [hclose]

theorem retired_acquireCalls : retired (e.acquireCalls g) = [] := by
  rw [acquireCalls]
  cases g.pool <;> rfl

/-- What is free belongs to the pool that was opened last, also if a pool has just been opened. -/
theorem acquire_latest {calls : List (Adapter.Call κ)} (hfree : g.pool.getD [] ⊆ latest calls)
    (h : ∀ x ∈ e.acquireCalls g, x.failure? = none) :
    g.pool.getD [] ++ created (e.acquireCalls g) ⊆ latest (calls ++ e.acquireCalls g) := by
  rw [acquireCalls] at h ⊢
  cases hpool : g.pool with
  | some pool =>
    rw [hpool] at hfree
    dsimp only
    rw [Adapter.created_nil, List.append_nil, List.append_nil]
    exact hfree
  | none =>
    rw [hpool] at h
    cases hopen : ((e.adapter.openAll e.settings).run g.database).1 with
    | error f =>
      rw [hopen] at h
      cases h _ (List.mem_singleton_self _)
    | ok cs =>
      have hmade : created [.opened (.ok cs : Except Failure (List κ))] = cs := List.append_nil cs
      dsimp only
      rw [hmade, Adapter.latest_append_of_singleton rfl]
      exact fun c hc => hc

end Engine

/-! ### Sessions that are closed -/

namespace Session

variable {ω κ : Type} {e : Engine ω κ} {t : SessionState ω κ}

/-- What fails of commands and of giving the connection back are commands. -/
theorem site_of_mem_raisedOf {acts : List Act} (h : ∀ a ∈ acts, (∃ ctl, a = .control ctl) ∨ a = .finish) {r : Raised}
    (hr : r ∈ raisedOf e t acts) : r.site = .command := by
  induction acts generalizing t with
  | nil => cases hr
  | cons a rest ih =>
    obtain ⟨ha, hrest⟩ := List.forall_mem_cons.1 h
    rw [raisedOf, List.mem_append] at hr
    refine hr.elim (fun hr => ?_) (ih hrest)
    rcases ha with ⟨ctl, rfl⟩ | rfl
    · rw [Act.raised] at hr
      split at hr
      · cases hr
      · rw [Raised.at?, List.mem_map] at hr
        obtain ⟨f, -, rfl⟩ := hr
        rfl
    · cases hr

theorem Operation.raised_of_closes {o : Operation} (ho : o.Closes)
    (hcalls : ∀ x ∈ journal e t [o], x.failure? = none) : o.raised e t = [] := by
  have hacts : ∀ a ∈ o.acts e t, (∃ ctl, a = .control ctl) ∨ a = .finish := by
    rcases o.acts_of_closes e t ho with ⟨-, hacts⟩ | ⟨-, before, hacts, hbefore⟩
    · simp [hacts]
    · intro a ha
      rw [hacts, List.mem_append, List.mem_singleton] at ha
      exact ha.imp_left (hbefore a)
  have haccounts := accounts_raised (e := e) (t := t) (o := o)
  have hcommands : (o.raised e t).filter (·.site ≠ .fetch) = o.raised e t :=
    List.filter_eq_self.2 fun r hr => by simp [site_of_mem_raisedOf hacts hr]
  rw [Raised.Accounts, hcommands] at haccounts
  refine List.map_eq_nil_iff.1 (haccounts.trans (List.filterMap_eq_nil_iff.2 fun x hx => ?_))
  have hx := hcalls x hx
  cases x with
  | opened | closed => rfl
  | _ => exact hx

/-- If no call fails and there is a pool, a session is closed without a failure. -/
theorem Operation.run_of_closes {o : Operation} (ho : o.Closes) (hpool : t.engine.pool ≠ none)
    (hcalls : ∀ x ∈ journal e t [o], x.failure? = none) : ((o.task e).run t).1 = .ok () := by
  have hfailure := o.failure?_task e t fun h => hpool h.2.2
  have hrefusal : o.refusal? e t = none := by
    cases o with
    | run st => exact ho.elim
    | control ctl => exact ho.elim
    | close => rfl
    | leave failed => rfl
  rw [raised_of_closes ho hcalls, hrefusal] at hfailure
  cases houtcome : ((o.task e).run t).1 with
  | ok done => rfl
  | error f =>
    rw [houtcome] at hfailure
    cases hfailure

end Session

/-! ### Turns -/

/-- A turn of a run: something is done on the engine, or its pool is closed. -/
inductive Turn
  | move (m : Move)
  | shut

/-- An engine with its sessions, the calls that were made, and the connections that were to be given back while there
was no pool. -/
structure Chronicle (ω κ : Type) where
  service : Service ω κ
  calls : List (Adapter.Call κ)
  lost : List κ

namespace Turn

variable {ω κ : Type} (e : Engine ω κ) (svc : Service ω κ)

def task : Turn → Task (Service ω κ) Unit
  | .move m => m.task e
  | .shut => Service.inEngine e.closePool

/-- The calls that a turn makes. -/
def calls : Turn → List (Adapter.Call κ)
  | .move m => m.calls e svc
  | .shut => e.closeCalls svc.engine

/-- The connection that a turn loses. -/
def loses : Turn → List κ
  | .move m => m.loses svc
  | .shut => []

/-- The turn closes the session, which is open until then. -/
inductive Ends : Turn → Session κ → Prop
  | intro (index : Nat) (o : Session.Operation) (s : Session κ) (ho : o.Closes) (hs : svc.sessions[index]? = some s)
    (hp : s.phase ≠ .closed) : Ends (.move (.operate index o)) s

/-- What a turn makes of all that was so far. -/
def onto (t : Turn) (p : Chronicle ω κ) : Chronicle ω κ :=
  ⟨((t.task e).run p.service).2, p.calls ++ t.calls e p.service, p.lost ++ t.loses p.service⟩

end Turn

namespace Chronicle

variable {ω κ : Type} (e : Engine ω κ)

/-- Nothing has been opened yet. -/
def fresh (w : ω) : Chronicle ω κ := ⟨Service.fresh w, [], []⟩

def after (turns : List Turn) (p : Chronicle ω κ) : Chronicle ω κ := turns.foldl (fun p t => t.onto e p) p

/-- It holds at every turn of a run, with what was before it. -/
def Throughout (holds : Chronicle ω κ → Turn → Prop) (p : Chronicle ω κ) : List Turn → Prop
  | [] => True
  | t :: rest => holds p t ∧ Throughout holds (t.onto e p) rest

/-- If the turn closes a session, the pool that the connection of the session belongs to is open. -/
def Timely (p : Chronicle ω κ) (t : Turn) : Prop :=
  ∀ s, t.Ends p.service s → p.service.engine.pool ≠ none ∧ s.connection ∈ latest p.calls

/-- How a turn leaves what is to be closed: nobody who closes a session sees a failure; what is free belongs to the pool
that was opened last, and is not more than a pool is opened with; and when pool and sessions are closed, so are all
connections that were made. -/
structure Clean (p : Chronicle ω κ) (t : Turn) : Prop where
  unfailing : ∀ index o, t = .move (.operate index o) → o.Closes → ((t.task e).run p.service).1 = .ok ()
  native : (t.onto e p).service.free ⊆ latest (t.onto e p).calls
  bounded : ∀ n, (∀ cs ∈ openings (t.onto e p).calls, cs.length ≤ n) → (t.onto e p).service.free.length ≤ n
  complete : (t.onto e p).service.engine.pool = none → (∀ s ∈ (t.onto e p).service.sessions, s.phase = .closed) →
    (retired (t.onto e p).calls).Perm (created (t.onto e p).calls)

/-- What comes of closing a session: its connection goes to the pool that is open, whichever it is. If none is, the
caller sees a failure and the connection is lost. -/
structure Returned (p : Chronicle ω κ) (t : Turn) : Prop where
  stranded : ∀ s, t.Ends p.service s → p.service.engine.pool = none →
    ((t.task e).run p.service).1 = .error .absentAttribute ∧ (t.onto e p).lost = p.lost ++ [s.connection]
  pooled : ∀ s free, t.Ends p.service s → p.service.engine.pool = some free →
    ((t.task e).run p.service).1 = .ok () ∧ (t.onto e p).service.engine.pool = some (free.put s.connection)

variable {e} {p : Chronicle ω κ} {t : Turn}

/-! ### One turn -/

theorem returned (hcalls : ∀ x ∈ t.calls e p.service, x.failure? = none) : Returned e p t := by
  constructor
  · rintro s ⟨index, o, _, ho, hs, hp⟩ hpool
    have hrun := Move.run_task_operate e p.service index o
    have hloses : (Move.operate index o).loses p.service = [s.connection] := by
      rw [Move.loses, hs]
      dsimp only
      rw [if_pos ⟨ho, Option.isNone_iff_eq_none.2 hpool⟩, Session.holds, if_neg hp]
    rw [hs] at hrun
    rw [Turn.task, hrun, Turn.onto, Turn.loses, hloses]
    exact ⟨Session.Operation.run_of_stranded ⟨ho, hp, hpool⟩, rfl⟩
  · rintro s free ⟨index, o, _, ho, hs, hp⟩ hpool
    have hrun := Move.run_task_operate e p.service index o
    have hnext := o.next_pool (e := e) (t := ⟨s, p.service.engine⟩)
    rw [Turn.calls, Move.calls, hs] at hcalls
    rw [if_pos ⟨ho, hp⟩, hpool] at hnext
    rw [hs] at hrun
    rw [Turn.task, hrun, Turn.onto, Turn.task, hrun]
    exact ⟨Session.Operation.run_of_closes ho (by rw [hpool]; simp) hcalls, hnext⟩

/-- Closing a session opens and closes no connection. -/
theorem isWork_of_ends {s : Session κ} (h : t.Ends p.service s) : ∀ x ∈ t.calls e p.service, x.IsWork := by
  obtain ⟨index, o, s, ho, hs, hp⟩ := h
  rw [Turn.calls, Move.calls, hs]
  exact Session.isWork_journal e _ o

/-- Where the connections are that were made. -/
def Placed (p : Chronicle ω κ) : Prop :=
  (p.service.free ++ p.service.held ++ retired p.calls ++ p.lost).Perm (created p.calls)

theorem free_shut (hcalls : ∀ x ∈ e.closeCalls p.service.engine, x.failure? = none) :
    (Turn.shut.onto e p).service.free = [] := by
  rw [Service.free, show (Turn.shut.onto e p).service.engine.pool = none from (Engine.closePool_of_succeeded hcalls).2]
  rfl

theorem retired_move (m : Move) : retired (m.calls e p.service) = [] := by
  cases m with
  | run s =>
    obtain ⟨work, hwork, hisWork⟩ := e.exists_callsOf_eq s p.service.engine
    rw [Move.calls, hwork, retired_append, Engine.retired_acquireCalls, Adapter.retired_of_work hisWork]
    rfl
  | start =>
    rw [Move.calls, Session.startCalls_eq, Engine.retired_acquireCalls]
  | operate index o =>
    rw [Move.calls]
    cases p.service.sessions[index]? with
    | none => rfl
    | some s => exact Adapter.retired_of_work (Session.isWork_journal e _ o)

/-- A turn moves connections, makes new ones or closes some, and each is in one place still. -/
theorem Placed.onto (h : p.Placed) (hcalls : ∀ x ∈ t.calls e p.service, x.failure? = none) : (t.onto e p).Placed := by
  classical
  rw [Placed, List.perm_iff_count] at h ⊢
  intro c
  have hc := h c
  cases t with
  | move m =>
    have hmove := (Service.places_next e p.service m).count_eq c
    have hcalls' : (Turn.move m |>.onto e p).calls = p.calls ++ m.calls e p.service := rfl
    have hservice : (Turn.move m |>.onto e p).service = m.next e p.service := rfl
    have hlost : (Turn.move m |>.onto e p).lost = p.lost ++ m.loses p.service := rfl
    rw [hcalls', hservice, hlost, retired_append, retired_move, created_append]
    simp only [List.count_append, List.count_nil] at hc hmove ⊢
    omega
  | shut =>
    have hshut := (Engine.closePool_of_succeeded hcalls).1
    have hcalls' : (Turn.shut.onto e p).calls = p.calls ++ e.closeCalls p.service.engine := rfl
    have hheld : (Turn.shut.onto e p).service.held = p.service.held := rfl
    have hlost : (Turn.shut.onto e p).lost = p.lost ++ [] := rfl
    have hretired : retired (e.closeCalls p.service.engine) = p.service.free := by
      rw [hshut, retired, List.filterMap_map]
      exact List.filterMap_some
    have hmade : created (e.closeCalls p.service.engine) = [] := by
      rw [hshut, created, List.flatMap_map]
      exact List.flatMap_eq_nil_iff.2 fun _ _ => rfl
    rw [hcalls', hheld, hlost, free_shut hcalls, retired_append, created_append, hretired, hmade]
    simp only [List.count_append, List.count_nil] at hc ⊢
    omega

/-- If sessions are closed timely, what is free belongs to the pool that was opened last. -/
theorem Timely.native (h : Timely p t) (hfree : p.service.free ⊆ latest p.calls)
    (hcalls : ∀ x ∈ t.calls e p.service, x.failure? = none) :
    (t.onto e p).service.free ⊆ latest (t.onto e p).calls := by
  cases t with
  | shut =>
    rw [free_shut hcalls]
    exact List.nil_subset _
  | move m =>
    show (m.next e p.service).free ⊆ latest (p.calls ++ m.calls e p.service)
    cases m with
    | run s =>
      obtain ⟨work, hwork, hisWork⟩ := e.exists_callsOf_eq s p.service.engine
      rw [Turn.calls, Move.calls, hwork] at hcalls
      have hlatest := Engine.acquire_latest hfree fun x hx => hcalls x (List.mem_append_left _ hx)
      rw [Move.calls, hwork, ← List.append_assoc, Adapter.latest_append_of_work hisWork,
        Move.next, Move.run_task_run]
      rcases e.pool_after_run s p.service.engine with hpool | ⟨hpool, -, -⟩
      · rw [Service.free, hpool]
        exact hlatest
      · rw [Service.free, hpool]
        exact List.nil_subset _
    | start =>
      have htaking := e.taking_of_acquire p.service.engine
      rw [Turn.calls, Move.calls, Session.startCalls_eq] at hcalls
      have hlatest := Engine.acquire_latest hfree hcalls
      rw [Move.calls, Session.startCalls_eq, Move.next, Move.run_task_start]
      cases hc : e.acquire.run p.service.engine with
      | mk outcome g =>
        obtain ⟨left, w⟩ := g
        rw [hc] at htaking
        cases htaking with
        | taken c rest hrest =>
          rw [← hrest] at hlatest
          exact fun d hd => hlatest (List.mem_append_left _ hd)
        | exhausted hnone => exact List.nil_subset _
        | unopened f hp hm => exact List.nil_subset _
    | operate index o =>
      rw [Move.calls, Move.next, Move.run_task_operate]
      cases hs : p.service.sessions[index]? with
      | none =>
        dsimp only
        rw [List.append_nil]
        exact hfree
      | some s =>
        have hpool := o.next_pool (e := e) (t := ⟨s, p.service.engine⟩)
        dsimp only at hpool ⊢
        rw [Adapter.latest_append_of_work (Session.isWork_journal e _ o), Service.free, hpool]
        split
        · rename_i hcloses
          obtain ⟨hopen, hmem⟩ := h s ⟨index, o, s, hcloses.1, hs, hcloses.2⟩
          obtain ⟨free, hfree'⟩ := Option.ne_none_iff_exists'.1 hopen
          rw [Service.free, hfree'] at hfree
          rw [hfree']
          exact List.append_subset.2 ⟨hfree, List.cons_subset.2 ⟨hmem, List.nil_subset _⟩⟩
        · exact hfree

theorem Timely.loses_eq_nil (h : Timely p t) : t.loses p.service = [] := by
  cases t with
  | shut => rfl
  | move m =>
    cases m with
    | operate index o =>
      rw [Turn.loses, Move.loses]
      cases hs : p.service.sessions[index]? with
      | none => rfl
      | some s =>
        dsimp only
        by_cases hp : s.phase = .closed
        · rw [Session.holds, if_pos hp, ite_self]
        · refine if_neg fun hlost => ?_
          exact (h s ⟨index, o, s, hlost.1, hs, hp⟩).1 (Option.isNone_iff_eq_none.1 hlost.2)
    | _ => rfl

/-! ### Whole runs -/

/-- What holds as long as sessions are closed timely. -/
structure Sound (p : Chronicle ω κ) : Prop where
  placed : p.Placed
  native : p.service.free ⊆ latest p.calls
  kept : p.lost = []

theorem sound_fresh (w : ω) : (fresh w : Chronicle ω κ).Sound :=
  ⟨.refl _, List.nil_subset _, rfl⟩

theorem Sound.onto (h : p.Sound) (ht : Timely p t) (hcalls : ∀ x ∈ t.calls e p.service, x.failure? = none) :
    (t.onto e p).Sound := by
  refine ⟨h.placed.onto hcalls, ht.native h.native hcalls, ?_⟩
  rw [Turn.onto, h.kept, ht.loses_eq_nil]
  rfl

theorem length_latest_le {calls : List (Adapter.Call κ)} {n : Nat} (h : ∀ cs ∈ openings calls, cs.length ≤ n) :
    (latest calls).length ≤ n := by
  rw [latest]
  cases hlast : (openings calls).getLast? with
  | none => exact Nat.zero_le n
  | some cs => exact h cs (List.mem_of_getLast? hlast)

theorem Sound.bounded (h : p.Sound) (honce : (created p.calls).Nodup) {n : Nat}
    (hn : ∀ cs ∈ openings p.calls, cs.length ≤ n) : p.service.free.length ≤ n := by
  have hnodup := h.placed.nodup_iff.2 honce
  rw [List.append_assoc, List.append_assoc] at hnodup
  calc p.service.free.length ≤ (latest p.calls).length :=
        (List.subperm_of_subset (List.nodup_append.1 hnodup).1 h.native).length_le
    _ ≤ n := length_latest_le hn

theorem Sound.complete (h : p.Sound) (hpool : p.service.engine.pool = none)
    (hsessions : ∀ s ∈ p.service.sessions, s.phase = .closed) : (retired p.calls).Perm (created p.calls) := by
  have hplaced := h.placed
  have hfree : p.service.free = [] := by rw [Service.free, hpool]; rfl
  have hheld : p.service.held = [] :=
    List.flatMap_eq_nil_iff.2 fun s hs => by rw [Session.holds, if_pos (hsessions s hs)]
  rw [Placed, hfree, hheld, h.kept, List.append_nil] at hplaced
  exact hplaced

/-- A turn is clean exactly if it is timely. -/
theorem Sound.clean_iff (h : p.Sound) (hcalls : ∀ x ∈ t.calls e p.service, x.failure? = none)
    (honce : (created (t.onto e p).calls).Nodup) : Clean e p t ↔ Timely p t := by
  constructor
  · intro hclean s hs
    cases hpool : p.service.engine.pool with
    | none =>
      have hstranded := ((returned hcalls).stranded s hs hpool).1
      obtain ⟨index, o, s, ho, -, -⟩ := hs
      rw [hclean.unfailing index o rfl ho] at hstranded
      cases hstranded
    | some free =>
      have hnative := hclean.native
      rw [Service.free, ((returned hcalls).pooled s free hs hpool).2, Turn.onto,
        Adapter.latest_append_of_work (isWork_of_ends hs)] at hnative
      exact ⟨by simp, hnative (List.mem_append_right _ (List.mem_singleton_self _))⟩
  · intro ht
    have hsound := h.onto ht hcalls
    refine ⟨?_, hsound.native, fun n hn => hsound.bounded honce hn, hsound.complete⟩
    rintro index o rfl ho
    have hrun := Move.run_task_operate e p.service index o
    rw [Turn.task, hrun]
    cases hs : p.service.sessions[index]? with
    | none => rfl
    | some s =>
      by_cases hp : s.phase = .closed
      · dsimp only
        rw [o.run_closed hp]
        cases o with
        | run st => exact ho.elim
        | control ctl => exact ho.elim
        | close => rfl
        | leave failed => rfl
      · rw [Turn.calls, Move.calls, hs] at hcalls
        exact Session.Operation.run_of_closes ho (ht s ⟨index, o, s, ho, hs, hp⟩).1 hcalls

theorem prefix_after (turns : List Turn) : p.calls <+: (after e turns p).calls := by
  induction turns generalizing p with
  | nil => exact List.prefix_refl _
  | cons t rest ih => exact (List.prefix_append _ _).trans (ih (p := t.onto e p))

theorem prefix_created {calls more : List (Adapter.Call κ)} (h : calls <+: more) : created calls <+: created more := by
  obtain ⟨rest, rfl⟩ := h
  rw [created_append]
  exact List.prefix_append _ _

theorem succeeded_head {rest : List Turn} (h : ∀ x ∈ (after e (t :: rest) p).calls, x.failure? = none) :
    ∀ x ∈ t.calls e p.service, x.failure? = none :=
  fun x hx => h x ((prefix_after (p := t.onto e p) rest).subset (List.mem_append_right _ hx))

theorem Placed.after (h : p.Placed) {turns : List Turn}
    (hcalls : ∀ x ∈ (after e turns p).calls, x.failure? = none) : (after e turns p).Placed := by
  induction turns generalizing p with
  | nil => exact h
  | cons t rest ih => exact ih (h.onto (succeeded_head hcalls)) hcalls

theorem throughout_returned {turns : List Turn} (hcalls : ∀ x ∈ (after e turns p).calls, x.failure? = none) :
    Throughout e (Returned e) p turns := by
  induction turns generalizing p with
  | nil => trivial
  | cons t rest ih => exact ⟨returned (succeeded_head hcalls), ih hcalls⟩

theorem Sound.throughout_clean_iff (h : p.Sound) {turns : List Turn}
    (hcalls : ∀ x ∈ (after e turns p).calls, x.failure? = none) (honce : (created (after e turns p).calls).Nodup) :
    Throughout e (Clean e) p turns ↔ Throughout e Timely p turns := by
  induction turns generalizing p with
  | nil => exact .rfl
  | cons t rest ih =>
    have hhead := succeeded_head hcalls
    have honce' : (created (t.onto e p).calls).Nodup :=
      honce.sublist (prefix_created (prefix_after rest)).sublist
    rw [Throughout, Throughout, h.clean_iff hhead honce']
    exact and_congr_right fun ht => ih (h.onto ht hhead) hcalls honce

/-- Sessions come and go on an engine whose pool is closed and opened again, in any order and without a failing call.
Each connection that was made is free, held by a session, closed, or lost, and what is lost is never closed. Sessions
are closed cleanly throughout exactly if each is closed while the pool of its connection is open. -/
theorem closed_cleanly_iff (e : Engine ω κ) (w : ω) (turns : List Turn)
    (hcalls : ∀ x ∈ (after e turns (fresh w)).calls, x.failure? = none)
    (honce : (created (after e turns (fresh w)).calls).Nodup) :
    (after e turns (fresh w)).Placed ∧
    (retired (after e turns (fresh w)).calls).Disjoint (after e turns (fresh w)).lost ∧
    Throughout e (Returned e) (fresh w) turns ∧
    (Throughout e (Clean e) (fresh w) turns ↔ Throughout e Timely (fresh w) turns) := by
  have hsound := sound_fresh (κ := κ) w
  have hplaced := hsound.placed.after hcalls
  refine ⟨hplaced, ?_, throughout_returned hcalls, hsound.throughout_clean_iff hcalls honce⟩
  have hnodup := hplaced.nodup_iff.2 honce
  rw [List.append_assoc] at hnodup
  obtain ⟨-, -, hapart⟩ := List.nodup_append.1 (List.nodup_append.1 hnodup).2.1
  exact fun c hretired hlost => hapart c hretired c hlost rfl

end Chronicle

end RecordSql

namespace RecordSql.Rehearsal

open Adapter (created openings retired)
open Chronicle (fresh after Throughout Clean Timely)

/-- A database on which nothing has been opened and every call succeeds. -/
def calm : Stage := Stage.empty.rehearse ⟨[], [], none, none, none⟩

/-- A session is closed in its transaction before its pool is, and a statement opens the next pool: both connections are
closed in the end. -/
theorem closed_cleanly_in_turn :
    let turns : List Turn := [.move .start, .move (.operate 0 (.control .begin)), .move (.operate 0 (.leave false)), .shut,
      .move (.run (addUser "Ann")), .shut]
    let p := after solo turns (fresh calm)
    (∀ x ∈ p.calls, x.failure? = none) ∧ (created p.calls).Nodup ∧ Throughout solo Timely (fresh calm) turns ∧
      Throughout solo (Clean solo) (fresh calm) turns ∧ p.lost = [] ∧ created p.calls = [1, 2] ∧
      retired p.calls = [1, 2] := by
  intro turns p
  have hcalls : p.calls = [.opened (.ok [1]), .executed 1 "BEGIN" [] none, .executed 1 "COMMIT" [] none,
      .closed 1 none, .opened (.ok [2]), .executed 2 "INSERT INTO users VALUES ($1);" [.text "Ann"] none,
      .committed 2 none, .closed 2 none] := rfl
  have hsucceeded : ∀ x ∈ p.calls, x.failure? = none := by
    rw [hcalls]
    simp [Adapter.Call.failure?, Outcome.failure?]
  have honce : (created p.calls).Nodup := by
    rw [show created p.calls = [1, 2] from rfl]
    decide
  have htimely : Throughout solo Timely (fresh calm) turns := by
    refine ⟨?_, ?_, ?_, ?_, ?_, ?_, trivial⟩
    · rintro s ⟨⟩
    · rintro s ⟨_, _, _, ⟨⟩, _, _⟩
    · rintro s ⟨_, _, _, _, hs, _⟩
      cases hs
      exact ⟨by rintro ⟨⟩, List.mem_singleton_self _⟩
    · rintro s ⟨⟩
    · rintro s ⟨⟩
    · rintro s ⟨⟩
  have hclean := (Chronicle.closed_cleanly_iff solo calm turns hsucceeded honce).2.2.2.2 htimely
  exact ⟨hsucceeded, honce, htimely, hclean, rfl, rfl, rfl⟩

/-- The pool is closed before the session. Then closing the session fails, and its connection is never closed; or, if a
statement opened a pool in between, the connection gets into that, which has more connections then than it was opened
with. No call fails. -/
theorem closed_after_pool :
    let before := after solo [.move .start, .shut] (fresh calm)
    let between := after solo [.move .start, .shut, .move (.run (addUser "Ann"))] (fresh calm)
    let t : Turn := .move (.operate 0 .close)
    (((t.task solo).run before.service).1 = .error .absentAttribute ∧
      (t.onto solo before).service.engine.pool = none ∧
      (∀ s ∈ (t.onto solo before).service.sessions, s.phase = .closed) ∧
      (t.onto solo before).calls = [.opened (.ok [1])] ∧ retired (t.onto solo before).calls = [] ∧
      ¬ Clean solo before t) ∧
    (t.onto solo between).service.engine.pool = some [2, 1] ∧ openings (t.onto solo between).calls = [[1], [2]] ∧
      (∀ x ∈ (t.onto solo between).calls, x.failure? = none) ∧ ¬ Clean solo between t := by
  intro before between t
  have hfailed : ((t.task solo).run before.service).1 = .error .absentAttribute := rfl
  have hpool : (t.onto solo between).service.engine.pool = some [2, 1] := rfl
  have hcalls : (t.onto solo between).calls = [.opened (.ok [1]), .opened (.ok [2]),
      .executed 2 "INSERT INTO users VALUES ($1);" [.text "Ann"] none, .committed 2 none] := rfl
  refine ⟨⟨hfailed, rfl, ?_, rfl, rfl, fun hclean => ?_⟩, hpool, rfl, ?_, fun hclean => ?_⟩
  · intro s hs
    obtain rfl := List.mem_singleton.1 hs
    rfl
  · rw [hclean.unfailing 0 .close rfl trivial] at hfailed
    cases hfailed
  · rw [hcalls]
    simp [Adapter.Call.failure?, Outcome.failure?]
  · have hbound := hclean.bounded 1 (by
      rw [show openings (t.onto solo between).calls = [[1], [2]] from rfl]
      simp)
    rw [Service.free, hpool] at hbound
    exact absurd hbound (by decide)

end RecordSql.Rehearsal
