import RecordSql.Proofs.Database.Operation

/-!
# Life of a session

A session holds its connection until it is closed. Then the connection is in the pool again, once, whatever has failed
on the way, and all that is asked of the session afterwards is refused or does nothing.
-/

namespace RecordSql.Session

variable {ω κ : Type}

/-! ### Acts -/

/-- A session that holds a connection while the others are free, or has given it back. -/
structure Holding (c : κ) (free : Pool κ) (s : Session κ) (pool : Option (Pool κ)) : Prop where
  connection : s.connection = c
  pool : pool = some (if s.phase = .closed then free.put c else free)
  savepoints : s.phase = .idle → s.savepoints = []

variable {c : κ} {free : Pool κ} {s s' : Session κ} {pool pool' : Option (Pool κ)} {d : Deed κ}

/-- A transaction is started outside of one, and ended or marked inside. -/
theorem Control.phase_of_accepted {ctl : Control} (h : ctl.refusal? s = none) :
    s.phase = if ctl = .begin then .idle else .active := by
  cases hp : s.phase with
  | closed => simp [refusal?, hp] at h
  | idle => cases ctl <;> simp [refusal?, hp] at h ⊢
  | active => cases ctl <;> simp [refusal?, hp] at h ⊢

theorem Control.phase_ne_closed {ctl : Control} (h : ctl.refusal? s = none) : s.phase ≠ .closed := by
  rw [phase_of_accepted h]
  split <;> simp

theorem Control.effect_phase_ne_closed {ctl : Control} (h : ctl.refusal? s = none) :
    (ctl.effect s).phase ≠ .closed := by
  have hp := phase_of_accepted h
  cases ctl <;> simp [effect, hp]

theorem Act.Course.closed_iff (h : Act.Course s pool d s' pool') :
    s'.phase = .closed ↔ s.phase = .closed ∨ d.act = .finish := by
  cases h with
  | statement st outcome calls hp hcalls => simp
  | refusedStatement st hp => simp
  | refused ctl f hr => simp
  | failed ctl f hr => simp
  | done ctl hr => simp [Control.phase_ne_closed hr, Control.effect_phase_ne_closed hr]
  | finished outcome ho => simp

theorem Act.Course.connection (h : Act.Course s pool d s' pool') : s'.connection = s.connection := by
  cases h with
  | done ctl hr => cases ctl <;> rfl
  | _ => rfl

/-- Only giving the connection back has to do with the pool. -/
theorem Act.Course.pool_eq (h : Act.Course s pool d s' pool') (hd : d.act ≠ .finish) : pool' = pool := by
  cases h with
  | finished outcome ho => exact absurd rfl hd
  | _ => rfl

/-- Outside a transaction no savepoint is tracked. -/
theorem Act.Course.savepoints (h : Act.Course s pool d s' pool') (hs : s.phase = .idle → s.savepoints = []) :
    s'.phase = .idle → s'.savepoints = [] := by
  cases h with
  | done ctl hr =>
    intro hidle
    have hphase := Control.phase_of_accepted hr
    cases ctl with
    | begin => cases hidle
    | commit => rfl
    | rollback => rfl
    | savepoint name => cases hidle.symm.trans hphase
    | rollbackTo name => cases hidle.symm.trans hphase
  | finished outcome ho =>
    intro hidle
    cases hidle
  | _ => exact hs

/-- Only the connection that is held is given back, and only if it is held. -/
theorem Holding.step (h : Holding c free s pool) (hstep : Act.Course s pool d s' pool')
    (hd : d.act = .finish → s.phase ≠ .closed) : Holding c free s' pool' := by
  refine ⟨hstep.connection.trans h.connection, ?_, hstep.savepoints h.savepoints⟩
  cases hstep with
  | done ctl hr => rw [if_neg (Control.effect_phase_ne_closed hr), h.pool, if_neg (Control.phase_ne_closed hr)]
  | finished outcome ho =>
    rw [h.pool, if_neg (hd rfl), h.connection]
    rfl
  | _ => exact h.pool

/-- The database is asked to commit only for a statement outside a transaction. -/
theorem Act.Course.committed (h : Act.Course s pool d s' pool') {k : κ} {f : Option Failure}
    (hk : .committed k f ∈ d.calls) : (∃ st, d.act = .statement st) ∧ s.phase = .idle ∧ k = s.connection := by
  cases h with
  | statement st outcome calls hp hcalls =>
    rcases hcalls _ hk with ⟨sql, failure, hx⟩ | ⟨hidle, failure, hx⟩
    · cases hx
    · cases hx
      exact ⟨⟨st, rfl⟩, hidle, rfl⟩
  | refusedStatement st hp => cases hk
  | refused ctl f hr => cases hk
  | failed ctl f hr => simp at hk
  | done ctl hr => simp at hk
  | finished outcome ho => cases hk

/-! ### Operations -/

/-- The operations that close a session. -/
def Operation.Closes : Operation → Prop
  | .close | .leave _ => True
  | _ => False

instance (o : Operation) : Decidable o.Closes :=
  match o with
  | .close | .leave _ => isTrue trivial
  | .run _ | .control _ => isFalse id

variable (e : Engine ω κ) (t : SessionState ω κ)

theorem afterActs_closed_iff (acts : List Act) :
    (afterActs e acts t).session.phase = .closed ↔ t.session.phase = .closed ∨ .finish ∈ acts := by
  induction acts generalizing t with
  | nil => simp [afterActs]
  | cons a rest ih =>
    have hstep : (a.next e t).session.phase = .closed ↔ t.session.phase = .closed ∨ a = .finish :=
      (a.course e t).closed_iff
    rw [afterActs, List.foldl_cons, ← afterActs, ih, hstep, List.mem_cons, or_assoc, eq_comm (a := a)]

theorem closing_cases (s : Session κ) : s.phase = .closed ∧ closing s = [] ∨
    s.phase ≠ .closed ∧ ∃ before, closing s = before ++ [.finish] ∧ ∀ a ∈ before, ∃ ctl, a = .control ctl := by
  rw [closing]
  cases s.phase with
  | closed => exact .inl ⟨rfl, rfl⟩
  | active => exact .inr ⟨by simp, [.control .rollback], rfl, by simp⟩
  | idle => exact .inr ⟨by simp, [], rfl, by simp⟩

theorem finish_notMem_of_controls {acts : List Act} (h : ∀ a ∈ acts, ∃ ctl, a = .control ctl) : .finish ∉ acts := by
  intro ha
  obtain ⟨ctl, hctl⟩ := h _ ha
  cases hctl

/-- An operation that closes an open session ends with giving the connection back; before that are commands only. -/
theorem Operation.acts_of_closes {o : Operation} (ho : o.Closes) : t.session.phase = .closed ∧ o.acts e t = [] ∨
    t.session.phase ≠ .closed ∧ ∃ before, o.acts e t = before ++ [.finish] ∧ ∀ a ∈ before, ∃ ctl, a = .control ctl := by
  cases o with
  | run st => exact ho.elim
  | control ctl => exact ho.elim
  | close => exact closing_cases t.session
  | leave failed =>
    by_cases hp : t.session.phase = .active
    · have hopen : ((Act.control (ending failed)).next e t).session.phase ≠ .closed := by
        rw [ne_eq, ((Act.control (ending failed)).course e t).closed_iff, hp]
        rintro (hclosed | hfinish)
        · cases hclosed
        · cases hfinish
      rcases closing_cases ((Act.control (ending failed)).next e t).session with ⟨hc, -⟩ | ⟨-, before, hacts, hbefore⟩
      · exact absurd hc hopen
      · refine .inr ⟨by simp [hp], .control (ending failed) :: before, ?_, ?_⟩
        · rw [acts_leave_active e failed hp, hacts, List.cons_append]
        · rw [List.forall_mem_cons]
          exact ⟨⟨_, rfl⟩, hbefore⟩
    · rw [acts_leave_of_ne e failed hp]
      exact closing_cases t.session

theorem Operation.finish_notMem_acts {o : Operation} (ho : ¬ o.Closes) : .finish ∉ o.acts e t := by
  cases o with
  | run st => simp [acts]
  | control ctl => simp [acts]
  | close => exact absurd trivial ho
  | leave failed => exact absurd trivial ho

theorem Operation.closed_iff (o : Operation) :
    (o.next e t).session.phase = .closed ↔ t.session.phase = .closed ∨ o.Closes := by
  rw [next_eq, afterActs_closed_iff]
  by_cases ho : o.Closes
  · rcases acts_of_closes e t ho with ⟨hp, hacts⟩ | ⟨-, before, hacts, -⟩
    · simp [hp]
    · simp [hacts, ho]
  · simp [finish_notMem_acts e t ho, ho]

theorem after_closed_iff (ops : List Operation) :
    (after e ops t).session.phase = .closed ↔ t.session.phase = .closed ∨ ∃ o ∈ ops, o.Closes := by
  induction ops generalizing t with
  | nil => simp [after]
  | cons o rest ih =>
    rw [after, List.foldl_cons, ← after, ih, o.closed_iff, List.exists_mem_cons_iff, or_assoc]

variable {e t}

theorem connection_afterActs (acts : List Act) : (afterActs e acts t).session.connection = t.session.connection := by
  induction acts generalizing t with
  | nil => rfl
  | cons a rest ih => exact ih.trans (a.course e t).connection

theorem savepoints_afterActs (hs : t.session.phase = .idle → t.session.savepoints = []) (acts : List Act) :
    (afterActs e acts t).session.phase = .idle → (afterActs e acts t).session.savepoints = [] := by
  induction acts generalizing t with
  | nil => exact hs
  | cons a rest ih => exact ih ((a.course e t).savepoints hs)

theorem pool_afterActs {acts : List Act} (h : .finish ∉ acts) :
    (afterActs e acts t).engine.pool = t.engine.pool := by
  induction acts generalizing t with
  | nil => rfl
  | cons a rest ih =>
    rw [List.mem_cons, not_or] at h
    exact (ih h.2).trans ((a.course e t).pool_eq fun ha => h.1 ha.symm)

theorem Operation.next_connection (o : Operation) : (o.next e t).session.connection = t.session.connection := by
  rw [next_eq, connection_afterActs]

/-- Closing an open session puts its connection into the pool, if there is one. -/
theorem Operation.next_pool (o : Operation) : (o.next e t).engine.pool =
    if o.Closes ∧ t.session.phase ≠ .closed then t.engine.pool.map (·.put t.session.connection)
    else t.engine.pool := by
  rw [next_eq]
  by_cases ho : o.Closes
  · rcases o.acts_of_closes e t ho with ⟨hp, hacts⟩ | ⟨hp, before, hacts, hbefore⟩
    · rw [hacts, if_neg fun h => h.2 hp]
      rfl
    · have hlast : (Act.finish.next e (Session.afterActs e before t)).engine.pool =
          (Session.afterActs e before t).engine.pool.map (·.put (Session.afterActs e before t).session.connection) := by
        rw [Act.next, Act.task, run_finish]
      rw [pool_afterActs (finish_notMem_of_controls hbefore), connection_afterActs] at hlast
      rw [if_pos ⟨ho, hp⟩, hacts, Session.afterActs, List.foldl_append]
      exact hlast
  · rw [if_neg fun h => ho h.1, pool_afterActs (o.finish_notMem_acts e t ho)]

theorem Holding.afterActs {acts : List Act} (h : Holding c free t.session t.engine.pool) (hacts : .finish ∉ acts) :
    Holding c free (afterActs e acts t).session (afterActs e acts t).engine.pool := by
  induction acts generalizing t with
  | nil => exact h
  | cons a rest ih =>
    rw [List.mem_cons, not_or] at hacts
    exact ih (h.step (a.course e t) fun ha => absurd ha.symm hacts.1) hacts.2

theorem Holding.next (h : Holding c free t.session t.engine.pool) (o : Operation) :
    Holding c free (o.next e t).session (o.next e t).engine.pool := by
  rw [o.next_eq]
  by_cases ho : o.Closes
  · rcases o.acts_of_closes e t ho with ⟨-, hacts⟩ | ⟨hp, before, hacts, hbefore⟩
    · rw [hacts]
      exact h
    · -- the acts before the last leave the session open, so that its connection is given back once
      have hno := finish_notMem_of_controls hbefore
      have hopen : (Session.afterActs e before t).session.phase ≠ .closed := by
        rw [ne_eq, afterActs_closed_iff]
        exact fun hclosed => hclosed.elim hp hno
      have hlast := (h.afterActs (e := e) hno).step (Act.finish.course e (Session.afterActs e before t)) fun _ => hopen
      rw [hacts, Session.afterActs, List.foldl_append]
      exact hlast
  · exact h.afterActs (o.finish_notMem_acts e t ho)

/-- Whatever is done, the connection is held or has been given back. -/
theorem Holding.after (h : Holding c free t.session t.engine.pool) (ops : List Operation) :
    Holding c free (after e ops t).session (after e ops t).engine.pool := by
  induction ops generalizing t with
  | nil => exact h
  | cons o rest ih => exact ih (h.next o)

theorem not_committed_of_no_statement {acts : List Act} (hacts : ∀ a ∈ acts, ∀ st, a ≠ .statement st) {k : κ}
    {f : Option Failure} : .committed k f ∉ (deedsOf e t acts).flatMap Deed.calls := by
  induction acts generalizing t with
  | nil => simp [deedsOf]
  | cons a rest ih =>
    rw [deedsOf, List.flatMap_cons, List.mem_append, not_or]
    refine ⟨fun hk => ?_, ih fun b hb => hacts b (List.mem_cons_of_mem _ hb)⟩
    obtain ⟨⟨st, hst⟩, -⟩ := (a.course e t).committed hk
    exact hacts a List.mem_cons_self st hst

/-- The database is asked to commit only by a statement of an idle session. -/
theorem idle_of_committed {o : Operation} {k : κ} {f : Option Failure} (hk : .committed k f ∈ journal e t [o]) :
    t.session.phase = .idle ∧ k = t.session.connection := by
  rw [journal_eq, deeds, deeds, List.append_nil] at hk
  by_cases ho : o.Closes
  · -- closing sends commands and gives the connection back, which asks for no commit
    refine absurd hk (not_committed_of_no_statement ?_)
    rcases o.acts_of_closes e t ho with ⟨-, hacts⟩ | ⟨-, before, hacts, hbefore⟩
    · simp [hacts]
    · intro a ha st hst
      rw [hacts, List.mem_append, List.mem_singleton] at ha
      rcases ha with ha | rfl
      · obtain ⟨ctl, rfl⟩ := hbefore a ha
        cases hst
      · cases hst
  · cases o with
    | run st =>
      rw [Operation.deeds, Operation.acts, deedsOf, deedsOf, List.flatMap_singleton] at hk
      exact (((Act.statement st).course e t).committed hk).2
    | control ctl => exact absurd hk (not_committed_of_no_statement (by simp [Operation.acts]))
    | close => exact absurd trivial ho
    | leave failed => exact absurd trivial ho

/-! ### Closed sessions -/

/-- What comes of an operation on a closed session. -/
def Operation.whenClosed : Operation → Except Failure Unit
  | .run _ => .error (.transactionState "closed" "execute")
  | .control ctl => .error (.transactionState "closed" ctl.action)
  | .close | .leave _ => .ok ()

theorem Operation.run_closed (hp : t.session.phase = .closed) (o : Operation) :
    (o.task e).run t = (o.whenClosed, t) := by
  cases o with
  | run st =>
    rw [task, Task.run_discard, Session.run_run, hp]
    rfl
  | control ctl =>
    have hr : ctl.refusal? t.session = some (.transactionState "closed" ctl.action) := by
      simp [Control.refusal?, hp]
    rw [task, Control.run_task, hr]
    rfl
  | close =>
    rw [task, Session.close, Task.run_bind_get, hp]
    rfl
  | leave failed =>
    rw [task, Session.leave, Task.run_bind_get, hp]
    rfl

theorem after_closed (hp : t.session.phase = .closed) (ops : List Operation) : after e ops t = t := by
  induction ops with
  | nil => rfl
  | cons o rest ih =>
    rw [after, List.foldl_cons, ← after, Operation.next, o.run_closed hp]
    exact ih

/-- A closed session asks nothing of the database. -/
theorem journal_closed (hp : t.session.phase = .closed) (ops : List Operation) : journal e t ops = [] := by
  rw [journal, after_closed (t := t.traced []) hp]
  rfl

/-! ### Sessions that were opened -/

/-- A session starts idle, with its connection taken out of the pool. -/
theorem opened_of_start {g g' : EngineState ω κ} {session : Session κ} (h : (start e).run g = (.ok session, g')) :
    session.phase = .idle ∧ session.savepoints = [] ∧ ∃ free, g'.pool = some free := by
  obtain ⟨k, u, hk, hs⟩ := Task.run_bind_eq_ok.1 h
  obtain ⟨free, hfree⟩ := e.pool_of_acquire hk
  cases hs
  exact ⟨rfl, rfl, free, hfree⟩

theorem holding_of_start {g g' : EngineState ω κ} {session : Session κ} (h : (start e).run g = (.ok session, g')) :
    ∃ free, g'.pool = some free ∧ Holding session.connection free session g'.pool := by
  obtain ⟨hidle, hnone, free, hpool⟩ := opened_of_start h
  refine ⟨free, hpool, rfl, ?_, fun _ => hnone⟩
  rw [hpool, hidle]
  rfl

/-- Whatever is done with a session and whatever fails: its connection is out of the pool until it is closed, and from
then on in the pool once; it is closed exactly if an operation was to close it; outside a transaction it tracks no
savepoint; the database is asked to commit only while it is idle; and once it is closed, operations are refused or do
nothing, and ask nothing of the database. -/
theorem held_until_closed {g g' : EngineState ω κ} {session : Session κ} (h : (start e).run g = (.ok session, g'))
    (ops : List Operation) : ∃ free, g'.pool = some free ∧
      let s := after e ops ⟨session, g'⟩
      s.session.connection = session.connection ∧
      s.engine.pool = some (if s.session.phase = .closed then free.put session.connection else free) ∧
      (s.session.phase = .closed ↔ ∃ o ∈ ops, o.Closes) ∧
      (s.session.phase = .idle → s.session.savepoints = []) ∧
      ∀ o : Operation,
        (∀ k f, .committed k f ∈ journal e s [o] → s.session.phase = .idle ∧ k = session.connection) ∧
        (s.session.phase = .closed → (o.task e).run s = (o.whenClosed, s) ∧ journal e s [o] = []) := by
  obtain ⟨free, hpool, hstart⟩ := holding_of_start h
  have hall := Holding.after (e := e) (t := ⟨session, g'⟩) hstart ops
  have hclosed := after_closed_iff e ⟨session, g'⟩ ops
  rw [(opened_of_start h).1] at hclosed
  refine ⟨free, hpool, hall.connection, hall.pool, ?_, hall.savepoints, fun o => ⟨fun k f hk => ?_, fun hp => ?_⟩⟩
  · simpa using hclosed
  · rw [← hall.connection]
    exact idle_of_committed hk
  · exact ⟨o.run_closed hp, journal_closed hp [o]⟩

end RecordSql.Session

namespace RecordSql.Rehearsal

open Session (start after journal Operation)

/-- A session whose last COMMIT and ROLLBACK fail is closed, and its connection is in the pool once. -/
theorem held_until_closed_busy :
    let g := onStage ⟨[], [.ok .silent, .ok .silent, .error busy, .error busy], none, none, none⟩
    let g' := ((start solo).run g).2
    let ops : List Operation := [.control .begin, .control (.savepoint "a"), .leave false]
    let s := after solo ops ⟨⟨1, .idle, []⟩, g'⟩
    (start solo).run g = (.ok ⟨1, .idle, []⟩, g') ∧ s.session.phase = .closed ∧ s.engine.pool = some [1] ∧
    ∀ o : Operation, (o.task solo).run s = (o.whenClosed, s) ∧ journal solo s [o] = [] := by
  intro g g' ops
  have h : (start solo).run g = (.ok ⟨1, .idle, []⟩, g') := rfl
  obtain ⟨free, hfree, hheld⟩ := Session.held_until_closed h ops
  have hnone : free = [] := by
    cases hfree
    rfl
  generalize after solo ops ⟨⟨1, .idle, []⟩, g'⟩ = s at hheld ⊢
  obtain ⟨-, hpool, hclosed, -, hops⟩ := hheld
  have hp : s.session.phase = .closed := hclosed.2 ⟨.leave false, by simp [ops], trivial⟩
  refine ⟨h, hp, ?_, fun o => (hops o).2 hp⟩
  rw [hpool, if_pos hp, hnone]
  rfl

end RecordSql.Rehearsal
