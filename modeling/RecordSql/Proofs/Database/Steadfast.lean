import RecordSql.Proofs.Database.Exposure

/-!
# Requests of a session

What is asked of an open session is allowed or not, then the driver is called, and only then the session changes. So a
request that is not allowed makes no call, and one that fails on the way leaves the session as it was, at whichever call
that is.
-/

namespace RecordSql

namespace Session

/-- What is asked of a session without closing it: that it runs a statement, or starts, ends or marks a transaction. -/
inductive Request
  | run (st : Statement)
  | control (c : Control)

namespace Request

variable {ω κ : Type}

def operation : Request → Operation
  | .run st => .run st
  | .control c => .control c

/-- The SQL that a request sends, and its values. A statement may have no spelling for the driver. -/
def sends (a : Adapter ω κ) : Request → Except Failure (String × List Value)
  | .run st => (a.spelling st).map (·, st.values)
  | .control c => .ok (c.sql, [])

/-- What is called after the SQL was executed: a statement outside a transaction is committed. -/
def commits (s : Session κ) : Request → List (Adapter.Call κ)
  | .run _ => if s.phase = .idle then [.committed s.connection none] else []
  | .control _ => []

/-- The session after the request. -/
def effect (s : Session κ) : Request → Session κ
  | .run _ => s
  | .control c => c.effect s

/-- A request that the state of the session does not allow. -/
inductive Disallowed (s : Session κ) : Request → Prop
  | closed (r : Request) (hp : s.phase = .closed) : Disallowed s r
  | begun (hp : s.phase = .active) : Disallowed s (.control .begin)
  | idle (c : Control) (hc : c ≠ .begin) (hp : s.phase = .idle) : Disallowed s (.control c)
  | untracked (name : String) (hn : name ∉ s.savepoints) : Disallowed s (.control (.rollbackTo name))

/-! ### Refusals -/

variable {s : Session κ} {c : Control} {st : Statement} {f : Failure}

theorem disallowed_run_iff : Disallowed s (.run st) ↔ s.phase = .closed := by
  constructor
  · intro h
    cases h with
    | closed _ hp => exact hp
  · exact .closed _

/-- What is not allowed is what is refused. -/
theorem disallowed_control_iff : Disallowed s (.control c) ↔ c.refusal? s ≠ none := by
  constructor
  · intro h hr
    have hphase := Control.phase_of_accepted hr
    cases h with
    | closed _ hp => exact Control.phase_ne_closed hr hp
    | begun hp => cases hp.symm.trans hphase
    | idle _ hc hp =>
      rw [if_neg hc] at hphase
      cases hp.symm.trans hphase
    | untracked name hn => simp [Control.refusal?, hphase, hn] at hr
  · intro hr
    cases hp : s.phase with
    | closed => exact .closed _ hp
    | idle => exact .idle c (fun hc => hr (by simp [Control.refusal?, hp, hc])) hp
    | active =>
      cases c with
      | begin => exact .begun hp
      | rollbackTo name => exact .untracked name fun hn => hr (by simp [Control.refusal?, hp, hn])
      | _ => exact absurd (by simp [Control.refusal?, hp]) hr

/-- A refusal names the state that the session is in. -/
theorem transactionState_of_refusal? (h : c.refusal? s = some f) :
    ∃ action, f = .transactionState s.phase.name action := by
  rw [Control.refusal?.eq_def] at h
  cases hp : s.phase with
  | closed =>
    rw [hp] at h
    cases h
    exact ⟨_, rfl⟩
  | idle =>
    rw [hp] at h
    cases c <;> cases h <;> exact ⟨_, rfl⟩
  | active =>
    rw [hp] at h
    cases c with
    | rollbackTo name =>
      dsimp only at h
      split at h
      · cases h
      · cases h
        exact ⟨_, rfl⟩
    | _ => cases h <;> exact ⟨_, rfl⟩

/-! ### Asking and settling -/

variable (e : Engine ω κ) (t : SessionState ω κ) (r : Request)

/-- The part of a request that can fail: it is refused, or the driver is called. -/
def ask (e : Engine ω κ) : Request → Task (SessionState ω κ) Unit
  | .run st => discard (Session.run e st)
  | .control c => do
    if let some f := c.refusal? (← get).session then throw f
    command e c.sql

/-- The part of a request that changes the session. -/
def settle (e : Engine ω κ) : Request → Task (SessionState ω κ) Unit
  | .run _ => pure ()
  | .control c => do
    update c.effect
    note e c.message

theorem run_ask_control (c : Control) :
    ((control c).ask e).run t = match c.refusal? t.session with
      | some f => (.error f, t)
      | none =>
        (((e.adapter.execute t.session.connection c.sql []).run t.engine.database).1.map fun _ => (),
          withDatabase t ((e.adapter.execute t.session.connection c.sql []).run t.engine.database).2) := by
  rw [ask, Task.run_bind_get]
  cases c.refusal? t.session with
  | some f => rfl
  | none => exact run_command e t c.sql

/-- Settling cannot fail, and is not a call. -/
theorem run_settle : ∃ w, (r.settle e).run t = (.ok (), ⟨r.effect t.session, { t.engine with database := w }⟩) := by
  cases r with
  | run st => exact ⟨t.engine.database, rfl⟩
  | control c => exact ⟨_, rfl⟩

theorem calls_settle (t : SessionState (ω × List (Adapter.Call κ)) κ) :
    ((r.settle e.traced).run t).2.engine.database.2 = t.engine.database.2 := by
  cases r <;> rfl

/-- A request is asked first, and settled if that succeeds. -/
theorem run_operation : (r.operation.task e).run t = (do r.ask e; r.settle e).run t := by
  rw [Task.run_bind]
  cases r with
  | run st =>
    show ((discard (Session.run e st)).run t) = _
    rw [ask]
    cases (discard (Session.run e st) : Task (SessionState ω κ) Unit).run t with
    | mk outcome u => cases outcome <;> rfl
  | control c =>
    show (c.task e).run t = _
    rw [run_ask_control, Control.run_task]
    cases c.refusal? t.session with
    | some f => rfl
    | none =>
      cases (e.adapter.execute t.session.connection c.sql []).run t.engine.database with
      | mk outcome w => cases outcome <;> rfl

theorem session_ask : ((r.ask e).run t).2.session = t.session := by
  cases r with
  | run st =>
    obtain ⟨w, hw⟩ := exists_run_run e t st
    rw [ask, Task.run_discard, hw]
    rfl
  | control c =>
    rw [run_ask_control]
    cases c.refusal? t.session <;> rfl

/-- All calls are made in asking. -/
theorem calls_ask : ((r.ask e.traced).run (t.traced [])).2.engine.database.2 = journal e t [r.operation] := by
  show _ = ((r.operation.task e.traced).run (t.traced [])).2.engine.database.2
  rw [run_operation, Task.run_bind]
  cases (r.ask e.traced).run (t.traced []) with
  | mk outcome u => cases outcome with
    | error f => rfl
    | ok _ => exact (calls_settle e r u).symm

variable {e t r}

/-- A request that fails has failed before it changed the session. -/
theorem session_of_error {f : Failure} (h : ((r.operation.task e).run t).1 = .error f) :
    (r.operation.next e t).session = t.session := by
  have hask := session_ask e t r
  rw [Operation.next]
  rw [run_operation, Task.run_bind] at h ⊢
  cases ha : (r.ask e).run t with
  | mk outcome u =>
    rw [ha] at h hask
    cases outcome with
    | error f' => exact hask
    | ok _ =>
      obtain ⟨w, hw⟩ := run_settle e u r
      dsimp only at h
      rw [hw] at h
      cases h

/-- One that succeeds has its effect. -/
theorem session_of_ok (h : ((r.operation.task e).run t).1 = .ok ()) :
    (r.operation.next e t).session = r.effect t.session := by
  have hask := session_ask e t r
  rw [Operation.next]
  rw [run_operation, Task.run_bind] at h ⊢
  cases ha : (r.ask e).run t with
  | mk outcome u =>
    rw [ha] at h hask
    cases outcome with
    | error f => cases h
    | ok _ =>
      obtain ⟨w, hw⟩ := run_settle e u r
      dsimp only at hask ⊢
      rw [hw, ← hask]

/-! ### Calls -/

theorem journal_run (st : Statement) : journal e t [(run st).operation] = runCalls e st t := by
  rw [journal_eq]
  show ((Act.statement st).deed e t).calls ++ [] = _
  rw [List.append_nil, Act.deed_statement]

theorem journal_control (c : Control) : journal e t [(control c).operation] = match c.refusal? t.session with
    | some _ => []
    | none => [.executed t.session.connection c.sql []
        (Outcome.failure? ((e.adapter.execute t.session.connection c.sql []).run t.engine.database).1)] := by
  rw [journal_eq]
  show ((Act.control c).deed e t).calls ++ [] = _
  rw [List.append_nil]
  exact congrArg Deed.calls (Act.deed_control e t c)

/-- A statement that succeeds was executed, and outside a transaction it was committed. -/
theorem runCalls_of_ok {rows : List Row} (h : ((Session.run e st).run t).1 = .ok rows) :
    ∃ sql, e.adapter.spelling st = .ok sql ∧
      runCalls e st t = .executed t.session.connection sql st.values none :: (run st).commits t.session := by
  rw [run_run] at h
  rw [runCalls, commits]
  cases hp : t.session.phase with
  | closed =>
    rw [hp] at h
    cases h
  | active =>
    rw [hp] at h
    obtain ⟨sql, hs, hsend⟩ := e.adapter.sendCalls_of_run_send e.settings.echo t.session.connection st
      t.engine.database (Prod.ext h rfl)
    exact ⟨sql, hs, hsend⟩
  | idle =>
    rw [hp] at h
    cases hx : (e.adapter.send e.settings.echo t.session.connection st).run t.engine.database with
    | mk outcome w =>
      rw [hx] at h
      cases outcome with
      | error f => cases h
      | ok sent =>
        obtain ⟨sql, hs, hsend⟩ := e.adapter.sendCalls_of_run_send e.settings.echo t.session.connection st
          t.engine.database hx
        refine ⟨sql, hs, ?_⟩
        rw [hsend]
        dsimp only at h ⊢
        cases hc : ((e.adapter.commit t.session.connection).run w).1 with
        | error f =>
          rw [hc] at h
          cases h
        | ok _ => rfl

/-- A request that succeeds has sent its SQL, once. -/
theorem journal_of_ok (h : ((r.operation.task e).run t).1 = .ok ()) : ∃ sql values,
    r.sends e.adapter = .ok (sql, values) ∧
      journal e t [r.operation] = .executed t.session.connection sql values none :: r.commits t.session := by
  cases r with
  | run st =>
    have hrun : ((Session.run e st).run t).1.map (fun _ => ()) = .ok () := by
      rw [← h]
      exact (congrArg Prod.fst (Task.run_discard t _)).symm
    obtain ⟨rows, hrows, -⟩ := Outcome.map_eq_ok.1 hrun
    obtain ⟨sql, hs, hcalls⟩ := runCalls_of_ok hrows
    refine ⟨sql, st.values, ?_, ?_⟩
    · rw [sends, hs]
      rfl
    · rw [journal_run, hcalls]
  | control c =>
    refine ⟨c.sql, [], rfl, ?_⟩
    obtain ⟨hr, -, cursor, w, hx, -⟩ := Control.of_run_task_ok e (Prod.ext h rfl)
    rw [journal_control, hr, hx]
    rfl

/-! ### The order of a request -/

variable (e t r) in
/-- How a session deals with a request. -/
structure Steadfast : Prop where
  /-- What is not allowed is refused in the name of the state, without a call, and nothing is changed. -/
  disallowed : Disallowed t.session r → journal e t [r.operation] = [] ∧
    ∃ action, (r.operation.task e).run t = (.error (.transactionState t.session.phase.name action), t)
  /-- What has no spelling for the driver fails likewise. -/
  unspelled : ¬ Disallowed t.session r → ∀ f, r.sends e.adapter = .error f →
    journal e t [r.operation] = [] ∧ (r.operation.task e).run t = (.error f, t)
  /-- The failures of the driver are those of its calls, and those of fetching rows. -/
  accounts : Raised.Accounts (r.operation.raised e t) (journal e t [r.operation])
  /-- If the driver fails, the caller gets an error, and the session is as it was. -/
  failed : r.operation.raised e t ≠ [] →
    (∃ f, ((r.operation.task e).run t).1 = .error f) ∧ (r.operation.next e t).session = t.session
  /-- Otherwise the SQL is sent once, and the session changes. -/
  done : ¬ Disallowed t.session r → ∀ sql values, r.sends e.adapter = .ok (sql, values) →
    r.operation.raised e t = [] → ((r.operation.task e).run t).1 = .ok () ∧
      journal e t [r.operation] = .executed t.session.connection sql values none :: r.commits t.session ∧
      (r.operation.next e t).session = r.effect t.session
  /-- All calls come before the change. -/
  inOrder : (r.operation.task e).run t = (do r.ask e; r.settle e).run t ∧
    ((r.ask e).run t).2.session = t.session ∧
    ((r.ask e.traced).run (t.traced [])).2.engine.database.2 = journal e t [r.operation]

theorem run_of_disallowed (h : Disallowed t.session r) : journal e t [r.operation] = [] ∧
    ∃ action, (r.operation.task e).run t = (.error (.transactionState t.session.phase.name action), t) := by
  cases r with
  | run st =>
    have hp := disallowed_run_iff.1 h
    rw [journal_run, runCalls, hp]
    refine ⟨rfl, "execute", ?_⟩
    show (discard (Session.run e st)).run t = _
    rw [Task.run_discard, run_run, hp]
    rfl
  | control c =>
    obtain ⟨f, hf⟩ := Option.ne_none_iff_exists'.1 (disallowed_control_iff.1 h)
    obtain ⟨action, rfl⟩ := transactionState_of_refusal? hf
    rw [journal_control, hf]
    refine ⟨rfl, action, ?_⟩
    show (c.task e).run t = _
    rw [Control.run_task, hf]

theorem refusal?_of_allowed (h : ¬ Disallowed t.session r) :
    r.operation.refusal? e t = Outcome.failure? (r.sends e.adapter) := by
  cases r with
  | run st =>
    have hp : t.session.phase ≠ .closed := fun hp => h (disallowed_run_iff.2 hp)
    show (if _ then _ else _) = _
    rw [if_neg hp, sends]
    cases e.adapter.spelling st <;> rfl
  | control c => exact Classical.not_not.1 fun hr => h (disallowed_control_iff.2 hr)

theorem failure?_of_request : Outcome.failure? ((r.operation.task e).run t).1 =
    (Raised.lastSeen? e.adapter (r.operation.raised e t)).or (r.operation.refusal? e t) := by
  refine r.operation.failure?_task e t ?_
  rintro ⟨hcloses, -⟩
  cases r <;> exact hcloses

theorem run_of_unspelled {f : Failure} (hd : ¬ Disallowed t.session r) (hs : r.sends e.adapter = .error f) :
    journal e t [r.operation] = [] ∧ (r.operation.task e).run t = (.error f, t) := by
  cases r with
  | control c => cases hs
  | run st =>
    have hspelling : e.adapter.spelling st = .error f := Outcome.map_eq_error.1 hs
    have hsend := e.adapter.run_send_of_error e.settings.echo t.session.connection st t.engine.database hspelling
    rw [journal_run, runCalls, Adapter.sendCalls, hspelling, hsend]
    show _ ∧ (discard (Session.run e st)).run t = _
    rw [Task.run_discard, run_run, hsend]
    cases hp : t.session.phase with
    | closed => exact absurd (disallowed_run_iff.2 hp) hd
    | active => exact ⟨rfl, rfl⟩
    | idle => exact ⟨rfl, rfl⟩

/-- What is not sent makes the driver fail in nothing. -/
theorem raised_of_unspelled {f : Failure} (hs : r.sends e.adapter = .error f) : r.operation.raised e t = [] := by
  cases r with
  | control c => cases hs
  | run st =>
    have hspelling : e.adapter.spelling st = .error f := Outcome.map_eq_error.1 hs
    have hsend := e.adapter.run_send_of_error e.settings.echo t.session.connection st t.engine.database hspelling
    show (Act.statement st).raised e t ++ [] = []
    rw [List.append_nil, Act.raised, Adapter.sendRaised, hspelling, hsend]
    cases t.session.phase <;> rfl

end Request

/-- In every state, whatever a request comes to: it is refused without a call, or fails and leaves the session as it
was, or sends its SQL once and then changes the session. -/
theorem steadfast {ω κ : Type} (e : Engine ω κ) (t : SessionState ω κ) (r : Request) : r.Steadfast e t where
  disallowed := Request.run_of_disallowed
  unspelled hd _ := Request.run_of_unspelled hd
  accounts := Operation.accounts_raised
  failed h := by
    have hfailure := Request.failure?_of_request (e := e) (t := t) (r := r)
    rw [Raised.lastSeen?, List.getLast?_eq_some_getLast h, Option.map_some, Option.some_or] at hfailure
    have herror := Raised.eq_error_of_failure? hfailure
    exact ⟨⟨_, herror⟩, Request.session_of_error herror⟩
  done hd sql values hs h := by
    have hnone : Outcome.failure? ((r.operation.task e).run t).1 = none := by
      rw [Request.failure?_of_request, h, Request.refusal?_of_allowed hd, hs]
      rfl
    have hok : ((r.operation.task e).run t).1 = .ok () := by
      cases hx : ((r.operation.task e).run t).1 with
      | ok _ => rfl
      | error f =>
        rw [hx] at hnone
        cases hnone
    obtain ⟨sql', values', hs', hjournal⟩ := Request.journal_of_ok hok
    cases hs.symm.trans hs'
    exact ⟨hok, hjournal, Request.session_of_ok hok⟩
  inOrder := ⟨r.run_operation e t, r.session_ask e t, r.calls_ask e t⟩

end Session

namespace Rehearsal

open Session (Request)

/-- The database refuses to roll back to a savepoint, and the session goes on as it was. It does not ask the database
for a savepoint that it has not set. -/
theorem steadfast_busy_rollback :
    let t := Session.after solo [.control .begin, .control (.savepoint "a")]
      (seated ⟨[], [.ok .silent, .ok .silent, .error busy], none, none, none⟩)
    let r := Request.control (.rollbackTo "a")
    let unknown := Request.control (.rollbackTo "b")
    t.session = ⟨1, .active, ["a"]⟩ ∧
    Session.journal solo t [r.operation] = [.executed 1 "ROLLBACK TO SAVEPOINT \"a\"" [] (some busy)] ∧
    (∃ f, ((r.operation.task solo).run t).1 = .error f) ∧ (r.operation.next solo t).session = ⟨1, .active, ["a"]⟩ ∧
    Request.Disallowed t.session unknown ∧ Session.journal solo t [unknown.operation] = [] := by
  intro t r unknown
  have hsession : t.session = ⟨1, .active, ["a"]⟩ := rfl
  have hraised : r.operation.raised solo t = [⟨.command, busy⟩] := rfl
  have hunknown : Request.Disallowed t.session unknown := .untracked "b" (by rw [hsession]; decide)
  obtain ⟨herror, hafter⟩ := (Session.steadfast solo t r).failed (by rw [hraised]; simp)
  exact ⟨hsession, rfl, herror, hafter, hunknown, ((Session.steadfast solo t unknown).disallowed hunknown).1⟩

/-- An engine whose driver takes question marks. -/
def marked : Engine Stage Nat := ⟨solo.settings, adapter "qmark"⟩

/-- Of two statements that an idle session allows one is not sent, as it has a quote without an end, and one is not
committed, as its row is too short. In neither case a call fails. -/
theorem unsent_and_uncommitted :
    let quote := Request.run ⟨"SELECT '", []⟩
    let t := seated ⟨[], [], none, none, none⟩
    let ann := Request.run (addUser "Ann")
    let u := seated ⟨[], [.ok shortRow], none, none, none⟩
    (¬ Request.Disallowed t.session quote ∧ quote.operation.raised marked t = [] ∧
      Session.journal marked t [quote.operation] = []) ∧
    ¬ Request.Disallowed u.session ann ∧
      Session.journal solo u [ann.operation] = [.executed 1 "INSERT INTO users VALUES ($1);" [.text "Ann"] none] := by
  intro quote t ann u
  have hquote : ¬ Request.Disallowed t.session quote := fun h => by cases Request.disallowed_run_iff.1 h
  have hann : ¬ Request.Disallowed u.session ann := fun h => by cases Request.disallowed_run_iff.1 h
  have hcut : Section.split "SELECT '".toList = .error .text := by decide +kernel
  have hspelling : quote.sends marked.adapter =
      .error (.binding "SELECT '" ("unterminated " ++ Quote.text.char.toString ++ " quoted section")) := by
    show (((Section.split "SELECT '".toList).mapError _).map _).map _ = _
    rw [hcut]
    rfl
  obtain ⟨hjournal, -⟩ := Request.run_of_unspelled hquote hspelling
  exact ⟨⟨hquote, Request.raised_of_unspelled hspelling, hjournal⟩, hann, rfl⟩

end Rehearsal

end RecordSql
