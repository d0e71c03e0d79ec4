import RecordSql.Proofs.Database.Ending

/-!
# Failures of the driver

A failure that the driver raises reaches the caller in the library's own words only if a statement was being executed,
or its rows fetched. What the driver raises when a transaction is committed or rolled back, and when a session sends a
command, reaches the caller as it is. Of several failures the caller sees the last.
-/

namespace RecordSql

/-- Where a driver can fail: at a statement and its rows, at the end of its transaction, and at a command. -/
inductive Site
  | execute
  | fetch
  | commit
  | rollback
  | command
  deriving DecidableEq, Repr

/-- A failure of the driver, and where it was raised. -/
structure Raised where
  site : Site
  failure : Failure

namespace Raised

open Outcome (failure?)

variable {ω κ α : Type}

/-- It was raised by a statement. -/
def OnStatement (r : Raised) : Prop := r.site = .execute ∨ r.site = .fetch

instance (r : Raised) : Decidable r.OnStatement := inferInstanceAs (Decidable (_ ∨ _))

/-- What is raised at a site, if anything is. -/
def at? (site : Site) (outcome : Except Failure α) : List Raised := (failure? outcome).toList.map (⟨site, ·⟩)

@[simp] theorem at?_ok (site : Site) (a : α) : at? site (.ok a) = [] := rfl

@[simp] theorem at?_error (site : Site) (f : Failure) : at? site (.error f : Except Failure α) = [⟨site, f⟩] := rfl

/-- What a caller sees of a failure, if nothing comes after it. -/
def seen (a : Adapter ω κ) (r : Raised) : Failure := if r.OnStatement then a.seen r.failure else r.failure

/-- What a caller sees of several failures. -/
def lastSeen? (a : Adapter ω κ) (raised : List Raised) : Option Failure := raised.getLast?.map (seen a)

variable (a : Adapter ω κ)

@[simp] theorem lastSeen?_nil : lastSeen? a [] = none := rfl

@[simp] theorem lastSeen?_singleton (r : Raised) : lastSeen? a [r] = some (r.seen a) := rfl

theorem lastSeen?_append (first second : List Raised) :
    lastSeen? a (first ++ second) = (lastSeen? a second).or (lastSeen? a first) := by
  rw [lastSeen?, List.getLast?_append]
  cases h : second.getLast? <;> simp [lastSeen?, h]

/-- The failures are all that the calls had, in order, but for rows that could not be fetched: that is no call. -/
def Accounts (raised : List Raised) (calls : List (Adapter.Call κ)) : Prop :=
  (raised.filter (·.site ≠ .fetch)).map failure = calls.filterMap fun
    | .executed _ _ _ failure | .committed _ failure | .rolledBack _ failure => failure
    | _ => none

theorem accounts_nil : Accounts ([] : List Raised) ([] : List (Adapter.Call κ)) := rfl

variable {a} {raised raised' : List Raised} {calls calls' : List (Adapter.Call κ)} {refusal : Option Failure}
  {outcome : Except Failure α}

theorem Accounts.append (h : Accounts raised calls) (h' : Accounts raised' calls') :
    Accounts (raised ++ raised') (calls ++ calls') := by
  rw [Accounts, List.filter_append, List.map_append, List.filterMap_append]
  exact congrArg₂ (· ++ ·) h h'

/-- What becomes of the failures that a driver raised. The last of them reaches the caller: in the library's own words
if it was raised by a statement and is recognised as a refusal, else as it is. If there are none, the operation fails
only if it was refused before the driver had to do with it. -/
structure Reaches (a : Adapter ω κ) (raised : List Raised) (refusal : Option Failure) (outcome : Except Failure α) :
    Prop where
  translated : ∀ r code message, raised.getLast? = some r → r.OnStatement →
    a.recognised? r.failure = some (code, message) → outcome = .error (.queryFailed code message)
  raw : ∀ r, raised.getLast? = some r → ¬ r.OnStatement → outcome = .error r.failure
  unchanged : ∀ r, raised.getLast? = some r → a.recognised? r.failure = none → outcome = .error r.failure
  silent : raised = [] → failure? outcome = refusal

theorem eq_error_of_failure? {f : Failure} (h : failure? outcome = some f) : outcome = .error f := by
  cases outcome with
  | ok x => cases h
  | error f' =>
    cases h
    rfl

theorem Reaches.of_failure? (h : failure? outcome = (lastSeen? a raised).or refusal) :
    Reaches a raised refusal outcome := by
  have hlast : ∀ r, raised.getLast? = some r → outcome = .error (r.seen a) := by
    intro r hr
    rw [lastSeen?, hr] at h
    exact eq_error_of_failure? h
  refine ⟨fun r code message hr hs hd => ?_, fun r hr hs => ?_, fun r hr hd => ?_, fun hnone => ?_⟩
  · rw [hlast r hr, seen, if_pos hs, Adapter.seen, hd]
  · rw [hlast r hr, seen, if_neg hs]
  · have hseen : a.seen r.failure = r.failure := by rw [Adapter.seen, hd]
    rw [hlast r hr, seen, hseen, ite_self]
  · rw [h, hnone]
    rfl

end Raised

/-! ### Statements -/

namespace Adapter

open Outcome (failure?)

variable {ω κ : Type} (a : Adapter ω κ) (echo : Bool) (c : κ) (s : Statement) (w : ω)

/-- What the driver raises when a statement is sent. -/
def sendRaised : List Raised :=
  match a.spelling s with
  | .error _ => []
  | .ok sql => match (a.execute c sql s.values).run (a.log (sendLine echo s sql) w) with
    | (.error f, _) => [⟨.execute, f⟩]
    | (.ok cursor, _) => Raised.at? .fetch cursor.rows

theorem failure?_run_send :
    failure? ((a.send echo c s).run w).1 =
      (Raised.lastSeen? a (a.sendRaised echo c s w)).or (failure? (a.spelling s)) := by
  rw [sendRaised]
  cases h : a.spelling s with
  | error f =>
    rw [a.run_send_of_error echo c s w h]
    rfl
  | ok sql =>
    rw [a.run_send echo c s w h]
    dsimp only
    cases (a.execute c sql s.values).run (a.log (sendLine echo s sql) w) with
    | mk outcome u => cases outcome with
      | error f => rfl
      | ok cursor =>
        dsimp only
        cases cursor.rows <;> rfl

theorem accounts_sendRaised : Raised.Accounts (a.sendRaised echo c s w) (a.sendCalls echo c s w) := by
  rw [sendRaised, sendCalls]
  cases a.spelling s with
  | error f => rfl
  | ok sql =>
    dsimp only
    cases (a.execute c sql s.values).run (a.log (sendLine echo s sql) w) with
    | mk outcome u => cases outcome with
      | error f => rfl
      | ok cursor =>
        dsimp only
        cases cursor.rows <;> rfl

end Adapter

namespace Engine

open Outcome (failure?)

variable {ω κ : Type} (e : Engine ω κ) (s : Statement) (c : κ) (w : ω) (g : EngineState ω κ)

/-- What the driver raises when the transaction of a statement is ended. -/
def endRaised : List Raised :=
  match (e.adapter.send e.settings.echo c s).run w with
  | (.ok _, u) => Raised.at? .commit ((e.adapter.commit c).run u).1
  | (.error f, u) => if f.isIn .interrupt then [] else Raised.at? .rollback ((e.adapter.rollback c).run u).1

theorem failure?_run_transact :
    failure? ((e.transact s c).run w).1 =
      (Raised.lastSeen? e.adapter (e.adapter.sendRaised e.settings.echo c s w ++ e.endRaised s c w)).or
        (failure? (e.adapter.spelling s)) := by
  rw [Raised.lastSeen?_append, Option.or_assoc, ← e.adapter.failure?_run_send, run_transact, endRaised]
  cases (e.adapter.send e.settings.echo c s).run w with
  | mk outcome u => cases outcome with
    | ok rows =>
      dsimp only
      cases ((e.adapter.commit c).run u).1 <;> rfl
    | error f =>
      dsimp only
      by_cases hf : f.isIn .interrupt
      · rw [if_pos hf, if_pos hf]
        rfl
      · rw [if_neg hf, if_neg hf]
        cases ((e.adapter.rollback c).run u).1 <;> rfl

theorem accounts_endRaised : Raised.Accounts (e.endRaised s c w) (e.endCalls s c w) := by
  rw [endRaised, endCalls]
  cases (e.adapter.send e.settings.echo c s).run w with
  | mk outcome u => cases outcome with
    | ok rows =>
      dsimp only
      cases ((e.adapter.commit c).run u).1 <;> rfl
    | error f =>
      dsimp only
      by_cases hf : f.isIn .interrupt
      · rw [if_pos hf, if_pos hf]
        rfl
      · rw [if_neg hf, if_neg hf]
        cases ((e.adapter.rollback c).run u).1 <;> rfl

/-- What the driver raises when a statement is run. -/
def raised : List Raised :=
  match e.acquire.run g with
  | (.ok c, h) => e.adapter.sendRaised e.settings.echo c s h.database ++ e.endRaised s c h.database
  | (.error _, _) => []

/-- Why a statement is not sent, if it is not: there is no connection, or it cannot be spelled. -/
def refusal? : Option Failure :=
  match e.acquire.run g with
  | (.ok _, _) => failure? (e.adapter.spelling s)
  | (.error f, _) => some f

theorem failure?_run_run :
    failure? ((e.run s).run g).1 = (Raised.lastSeen? e.adapter (e.raised s g)).or (e.refusal? s g) := by
  rw [run_run, raised, refusal?]
  cases e.acquire.run g with
  | mk outcome h => cases outcome with
    | ok c => exact e.failure?_run_transact s c h.database
    | error f => rfl

theorem accounts_acquireCalls : Raised.Accounts [] (e.acquireCalls g) := by
  rw [acquireCalls]
  cases g.pool <;> rfl

theorem accounts_raised : Raised.Accounts (e.raised s g) (e.callsOf s g) := by
  rw [raised, callsOf_eq]
  refine (e.accounts_acquireCalls g).append ?_
  cases e.acquire.run g with
  | mk outcome h => cases outcome with
    | ok c =>
      exact (e.adapter.accounts_sendRaised e.settings.echo c s h.database).append (e.accounts_endRaised s c h.database)
    | error f => exact Raised.accounts_nil

end Engine

/-! ### Sessions -/

namespace Session

open Outcome (failure?)

variable {ω κ : Type} (e : Engine ω κ) (t : SessionState ω κ)

namespace Act

/-- What the driver raises in an act. -/
def raised : Act → List Raised
  | .statement st => match t.session.phase with
    | .closed => []
    | .active => e.adapter.sendRaised e.settings.echo t.session.connection st t.engine.database
    | .idle =>
      e.adapter.sendRaised e.settings.echo t.session.connection st t.engine.database ++
        match (e.adapter.send e.settings.echo t.session.connection st).run t.engine.database with
        | (.ok _, w) => Raised.at? .commit ((e.adapter.commit t.session.connection).run w).1
        | (.error _, _) => []
  | .control ctl => match ctl.refusal? t.session with
    | some _ => []
    | none => Raised.at? .command ((e.adapter.execute t.session.connection ctl.sql []).run t.engine.database).1
  | .finish => []

/-- Why an act is refused, if it is. A connection cannot be given back if there is no pool. -/
def refusal? : Act → Option Failure
  | .statement st =>
    if t.session.phase = .closed then some (.transactionState "closed" "execute") else failure? (e.adapter.spelling st)
  | .control ctl => ctl.refusal? t.session
  | .finish => if t.engine.pool.isSome then none else some .absentAttribute

theorem failure?_deed (a : Act) :
    failure? (a.deed e t).outcome = (Raised.lastSeen? e.adapter (a.raised e t)).or (a.refusal? e t) := by
  cases a with
  | statement st =>
    have hmap : ∀ outcome : Except Failure (List Row), failure? (outcome.map fun _ => ()) = failure? outcome := by
      intro outcome
      cases outcome <;> rfl
    rw [deed_statement, raised, refusal?, run_run]
    dsimp only
    rw [hmap]
    cases t.session.phase with
    | closed => rfl
    | active => exact e.adapter.failure?_run_send e.settings.echo t.session.connection st t.engine.database
    | idle =>
      dsimp only
      rw [if_neg (by simp), Raised.lastSeen?_append, Option.or_assoc, ← e.adapter.failure?_run_send]
      cases (e.adapter.send e.settings.echo t.session.connection st).run t.engine.database with
      | mk outcome w => cases outcome with
        | error f => rfl
        | ok rows =>
          dsimp only
          cases ((e.adapter.commit t.session.connection).run w).1 <;> rfl
  | control ctl =>
    rw [deed_control, raised, refusal?, Control.run_task]
    cases ctl.refusal? t.session with
    | some f => rfl
    | none =>
      cases (e.adapter.execute t.session.connection ctl.sql []).run t.engine.database with
      | mk outcome w => cases outcome <;> rfl
  | finish =>
    rw [deed_finish, raised, refusal?, run_finish]
    cases t.engine.pool <;> rfl

theorem accounts_deed (a : Act) : Raised.Accounts (a.raised e t) (a.deed e t).calls := by
  cases a with
  | statement st =>
    rw [deed_statement, raised, runCalls]
    have hsend := e.adapter.accounts_sendRaised e.settings.echo t.session.connection st t.engine.database
    cases t.session.phase with
    | closed => exact Raised.accounts_nil
    | active => exact hsend
    | idle =>
      refine hsend.append ?_
      cases (e.adapter.send e.settings.echo t.session.connection st).run t.engine.database with
      | mk outcome w => cases outcome with
        | error f => rfl
        | ok rows =>
          dsimp only
          cases ((e.adapter.commit t.session.connection).run w).1 <;> rfl
  | control ctl =>
    rw [deed_control, raised]
    cases ctl.refusal? t.session with
    | some f => rfl
    | none =>
      dsimp only
      cases ((e.adapter.execute t.session.connection ctl.sql []).run t.engine.database).1 <;> rfl
  | finish =>
    rw [deed_finish]
    exact Raised.accounts_nil

end Act

/-- What the driver raises in acts that are done one after the other. -/
def raisedOf (t : SessionState ω κ) : List Act → List Raised
  | [] => []
  | a :: rest => a.raised e t ++ raisedOf (a.next e t) rest

/-- None of the acts is refused. -/
def Unrefused (t : SessionState ω κ) : List Act → Prop
  | [] => True
  | a :: rest => a.refusal? e t = none ∧ Unrefused (a.next e t) rest

theorem failure?_overall_cons (d : Deed κ) (rest : List (Deed κ)) :
    failure? (overall (d :: rest)) = (failure? (overall rest)).or (failure? d.outcome) := by
  rw [overall]
  cases overall rest <;> rfl

/-- Of acts that are not refused the caller sees the last failure. -/
theorem failure?_overall {acts : List Act} (h : Unrefused e t acts) :
    failure? (overall (deedsOf e t acts)) = Raised.lastSeen? e.adapter (raisedOf e t acts) := by
  induction acts generalizing t with
  | nil => rfl
  | cons a rest ih =>
    rw [deedsOf, failure?_overall_cons, ih _ h.2, a.failure?_deed, h.1, Option.or_none, raisedOf,
      Raised.lastSeen?_append]

theorem accounts_raisedOf (acts : List Act) :
    Raised.Accounts (raisedOf e t acts) ((deedsOf e t acts).flatMap Deed.calls) := by
  induction acts generalizing t with
  | nil => exact Raised.accounts_nil
  | cons a rest ih =>
    rw [raisedOf, deedsOf, List.flatMap_cons]
    exact (a.accounts_deed e t).append (ih _)

variable {e t}

theorem unrefused_closing (hpool : t.engine.pool.isSome) : Unrefused e t (closing t.session) := by
  have hfinish : ∀ u : SessionState ω κ, u.engine.pool.isSome → Act.finish.refusal? e u = none :=
    fun u hu => if_pos hu
  rw [closing]
  cases hp : t.session.phase with
  | closed => trivial
  | idle => exact ⟨hfinish t hpool, trivial⟩
  | active =>
    have hr : Control.rollback.refusal? t.session = none := by simp [Control.refusal?, hp]
    have hnext : ((Act.control .rollback).next e t).engine.pool = t.engine.pool := Control.next_pool .rollback
    exact ⟨hr, hfinish _ (hnext ▸ hpool), trivial⟩

theorem Operation.unrefused_of_closes {o : Operation} (ho : o.Closes) (hpool : t.engine.pool.isSome) :
    Unrefused e t (o.acts e t) := by
  cases o with
  | run st => exact ho.elim
  | control ctl => exact ho.elim
  | close => exact unrefused_closing hpool
  | leave failed =>
    by_cases hp : t.session.phase = .active
    · have hr : (ending failed).refusal? t.session = none := by
        cases failed <;> simp [ending, Control.refusal?, hp]
      have hnext : ((Act.control (ending failed)).next e t).engine.pool = t.engine.pool :=
        Control.next_pool (ending failed)
      rw [acts_leave_active e failed hp]
      exact ⟨hr, unrefused_closing (hnext ▸ hpool)⟩
    · rw [acts_leave_of_ne e failed hp]
      exact unrefused_closing hpool

theorem deedsOf_append (first second : List Act) :
    deedsOf e t (first ++ second) = deedsOf e t first ++ deedsOf e (afterActs e first t) second := by
  induction first generalizing t with
  | nil => rfl
  | cons a rest ih => exact congrArg (a.deed e t :: ·) ih

theorem overall_concat_error {f : Failure} {d : Deed κ} (hd : d.outcome = .error f) (before : List (Deed κ)) :
    overall (before ++ [d]) = .error f := by
  induction before with
  | nil => exact hd
  | cons b rest ih => rw [List.cons_append, overall, ih]

namespace Operation

variable (e t) (o : Operation)

/-- What the driver raises in an operation. -/
def raised : List Raised := raisedOf e t (o.acts e t)

/-- Why an operation is refused before the driver has to do with it, if it is. -/
def refusal? : Operation → Option Failure
  | .run st => (Act.statement st).refusal? e t
  | .control ctl => ctl.refusal? t.session
  | .close | .leave _ => none

/-- The operation has to give the connection back, and there is no pool. -/
def Stranded : Prop := o.Closes ∧ t.session.phase ≠ .closed ∧ t.engine.pool = none

variable {e t o}

theorem run_of_stranded (h : o.Stranded t) : ((o.task e).run t).1 = .error .absentAttribute := by
  obtain ⟨ho, hp, hpool⟩ := h
  rcases o.acts_of_closes e t ho with ⟨hclosed, -⟩ | ⟨-, before, hacts, hbefore⟩
  · exact absurd hclosed hp
  · have hlast : (Act.finish.deed e (afterActs e before t)).outcome = .error .absentAttribute := by
      rw [Act.deed_finish, run_finish, pool_afterActs (finish_notMem_of_controls hbefore), hpool]
    rw [run_task_eq, deeds, hacts, deedsOf_append]
    exact overall_concat_error hlast _

variable (e t o) in
theorem failure?_task (h : ¬ o.Stranded t) :
    failure? ((o.task e).run t).1 = (Raised.lastSeen? e.adapter (o.raised e t)).or (o.refusal? e t) := by
  have hsingle : ∀ a : Act, failure? (overall (deedsOf e t [a])) =
      (Raised.lastSeen? e.adapter (raisedOf e t [a])).or (a.refusal? e t) := by
    intro a
    rw [raisedOf, raisedOf, List.append_nil]
    exact a.failure?_deed e t
  have hcloses : o.Closes → failure? (overall (o.deeds e t)) = Raised.lastSeen? e.adapter (o.raised e t) := by
    intro ho
    refine failure?_overall e t ?_
    by_cases hp : t.session.phase = .closed
    · rcases o.acts_of_closes e t ho with ⟨-, hacts⟩ | ⟨hopen, -⟩
      · rw [hacts]
        trivial
      · exact absurd hp hopen
    · refine unrefused_of_closes ho (Option.isSome_iff_ne_none.2 fun hpool => h ⟨ho, hp, hpool⟩)
  rw [run_task_eq]
  cases o with
  | run st => exact hsingle (.statement st)
  | control ctl => exact hsingle (.control ctl)
  | close => exact (hcloses trivial).trans (Option.or_none).symm
  | leave failed => exact (hcloses trivial).trans (Option.or_none).symm

theorem accounts_raised : Raised.Accounts (o.raised e t) (journal e t [o]) := by
  rw [journal_eq, Session.deeds, Session.deeds, List.append_nil]
  exact accounts_raisedOf e t (o.acts e t)

end Operation

end Session

/-- What the driver raises in a run of an engine, and in an operation of a session in any state, is what its calls
failed with, and what fetching rows failed with. The last failure reaches the caller, and only one that a statement
raised is put in the library's own words. If a connection has to be given back and there is no pool, the caller sees
that instead. -/
theorem driver_failures_seen {ω κ : Type} (e : Engine ω κ) :
    (∀ s g, Raised.Accounts (e.raised s g) (e.callsOf s g) ∧
      Raised.Reaches e.adapter (e.raised s g) (e.refusal? s g) ((e.run s).run g).1) ∧
    ∀ t (o : Session.Operation), Raised.Accounts (o.raised e t) (Session.journal e t [o]) ∧
      (¬ o.Stranded t → Raised.Reaches e.adapter (o.raised e t) (o.refusal? e t) ((o.task e).run t).1) ∧
      (o.Stranded t → ((o.task e).run t).1 = .error .absentAttribute) := by
  refine ⟨fun s g => ⟨e.accounts_raised s g, .of_failure? (e.failure?_run_run s g)⟩, fun t o => ?_⟩
  refine ⟨Session.Operation.accounts_raised, fun h => .of_failure? (o.failure?_task e t h), fun h => ?_⟩
  exact Session.Operation.run_of_stranded h

namespace Rehearsal

open Session (Operation)

/-- An error that the database is in use, as a refusal that is recognised. -/
def locked : Failure :=
  .driver ⟨"OperationalError", "database is locked", some "SQLITE_BUSY", some "database is locked", true⟩

/-- A statement that the database refuses is reported in the library's words. If the ROLLBACK of a session that is
closed is refused for the same reason, the caller sees the failure of the driver. -/
theorem driver_failures_seen_locked :
    let g := onStage ⟨[], [.error locked], none, none, none⟩
    let t := (Operation.control .begin).next solo (seated ⟨[], [.ok .silent, .error locked], none, none, none⟩)
    ((solo.run (addUser "Ann")).run g).1 = .error (.queryFailed "SQLITE_BUSY" "database is locked") ∧
    ¬ Operation.close.Stranded t ∧ ((Operation.close.task solo).run t).1 = .error locked := by
  intro g t
  obtain ⟨hengine, hsession⟩ := driver_failures_seen solo
  have hstranded : ¬ Operation.close.Stranded t := by
    rintro ⟨-, -, hpool⟩
    cases hpool
  have hran : solo.raised (addUser "Ann") g = [⟨.execute, locked⟩] := rfl
  have hclosed : Operation.close.raised solo t = [⟨.command, locked⟩] := rfl
  refine ⟨?_, hstranded, ?_⟩
  · exact (hengine (addUser "Ann") g).2.translated ⟨.execute, locked⟩ "SQLITE_BUSY" "database is locked"
      (by rw [hran]; rfl) (.inl rfl) rfl
  · exact ((hsession t .close).2.1 hstranded).raw ⟨.command, locked⟩ (by rw [hclosed]; rfl)
      (by simp [Raised.OnStatement])

/-- The driver refuses the BEGIN of a session, and the caller sees its failure; had it refused a statement with the same
failure, the caller would see it in the library's words. -/
theorem raw_refusal_of_begin :
    let t := seated ⟨[], [.error locked], none, none, none⟩
    solo.adapter.recognised? locked = some ("SQLITE_BUSY", "database is locked") ∧
    Session.journal solo t [.control .begin] = [.executed 1 "BEGIN" [] (some locked)] ∧
    ((Session.begin solo).run t).1 = .error locked ∧
    ((Session.begin solo).run t).1 ≠ .error (.queryFailed "SQLITE_BUSY" "database is locked") ∧
    ((Session.run solo (addUser "Ann")).run t).1 = .error (.queryFailed "SQLITE_BUSY" "database is locked") := by
  intro t
  have hbegin : ((Session.begin solo).run t).1 = .error locked := rfl
  refine ⟨rfl, rfl, hbegin, ?_, rfl⟩
  rw [hbegin]
  simp [locked]

end Rehearsal

end RecordSql
