import RecordSql.Database.Postgresql
import RecordSql.Database.Sqlite
import RecordSql.Proofs.Database.Trace
import RecordSql.Rehearsal.Stage

/-!
# Opening a pool, call by call

An adapter opens its pool by calls of a driver, and any driver can be given a list of the calls that it gets. The list
tells which connections were opened, which were closed, and on which a call failed before they were ready. `Tells` is
what the calls of a task have to do with its outcome; it is closed under sequence, so that the opening of a pool is
followed from the first call to the closing of the connections that an opening that fails has left behind.

* `tells_openAll`: what can come of opening connections one after the other, with failures of any kind.
* `opening_settles`: for both adapters, with failures that they catch. Where a connection needs nothing but to be
  opened, nothing is left behind.
-/

namespace RecordSql

open Outcome (failure?)

namespace Driver

/-- A call of a driver, with what came of it. -/
inductive Call (κ : Type)
  | connected (target : String) (options : Row) (outcome : Except Failure κ)
  | optionSet (connection : κ) (name value : String) (failure : Option Failure)
  | executed (connection : κ) (sql : String) (values : Option (List Value)) (failure : Option Failure)
  | committed (connection : κ) (failure : Option Failure)
  | rolledBack (connection : κ) (failure : Option Failure)
  | closed (connection : κ) (failure : Option Failure)

variable {ω κ α β : Type}

/-- The driver with a list of its calls. -/
def traced (d : Driver ω κ) : Driver (ω × List (Call κ)) κ where
  connect target options := (d.connect target options).recorded (.connected target options)
  setOption c name value :=
    (d.setOption c name value).recorded fun outcome => .optionSet c name value (failure? outcome)
  execute c sql values := (d.execute c sql values).recorded fun outcome => .executed c sql values (failure? outcome)
  commit c := (d.commit c).recorded fun outcome => .committed c (failure? outcome)
  rollback c := (d.rollback c).recorded fun outcome => .rolledBack c (failure? outcome)
  close c := (d.close c).recorded fun outcome => .closed c (failure? outcome)
  log line := fun (w, calls) => (d.log line w, calls)

/-! ### What calls tell -/

namespace Call

/-- How a call failed, if it did. -/
def failure? : Call κ → Option Failure
  | .connected _ _ outcome => Outcome.failure? outcome
  | .optionSet _ _ _ failure | .executed _ _ _ failure | .committed _ failure | .rolledBack _ failure
  | .closed _ failure => failure

/-- Only attempts to connect and statements fail, and in a way that is caught. -/
def Within (caught : Failure → Prop) : Call κ → Prop
  | .connected _ _ (.error e) | .executed _ _ _ (some e) => caught e
  | call => call.failure? = none

end Call

/-- The connections that calls opened, in order. -/
def opened (calls : List (Call κ)) : List κ :=
  calls.flatMap fun
    | .connected _ _ (.ok c) => [c]
    | _ => []

/-- The connections that calls closed, in order, once for each time. -/
def closed (calls : List (Call κ)) : List κ :=
  calls.flatMap fun
    | .closed c _ => [c]
    | _ => []

/-- The connections on which a statement or an option failed. -/
def broken (calls : List (Call κ)) : List κ :=
  calls.flatMap fun
    | .optionSet c _ _ (some _) | .executed c _ _ (some _) => [c]
    | _ => []

def failures (calls : List (Call κ)) : List Failure := calls.filterMap Call.failure?

section Append

variable (first second : List (Call κ))

@[simp] theorem opened_append : opened (first ++ second) = opened first ++ opened second := List.flatMap_append

@[simp] theorem closed_append : closed (first ++ second) = closed first ++ closed second := List.flatMap_append

@[simp] theorem broken_append : broken (first ++ second) = broken first ++ broken second := List.flatMap_append

@[simp] theorem failures_append : failures (first ++ second) = failures first ++ failures second :=
  List.filterMap_append

end Append

/-! ### Tasks with their calls -/

/-- The second task does what the first does, and adds calls to the list that fit the outcome. -/
def Tells (x : Task ω α) (y : Task (ω × List (Call κ)) α) (fits : Except Failure α → List (Call κ) → Prop) : Prop :=
  ∀ w calls, ∃ new, y.run (w, calls) = ((x.run w).1, (x.run w).2, calls ++ new) ∧ fits (x.run w).1 new

namespace Tells

variable {x : Task ω α} {y : Task (ω × List (Call κ)) α} {f : α → Task ω β} {g : α → Task (ω × List (Call κ)) β}
  {P : Except Failure α → List (Call κ) → Prop} {R : Except Failure β → List (Call κ) → Prop}

theorem ofExcept (outcome : Except Failure α) (h : P outcome []) :
    Tells (Task.ofExcept outcome : Task ω α) (Task.ofExcept outcome) P :=
  fun w calls => ⟨[], by rw [Task.run_ofExcept, Task.run_ofExcept, List.append_nil], h⟩

/-- One call. -/
theorem recorded (x : Task ω α) (entry : Except Failure α → Call κ) (h : ∀ outcome, P outcome [entry outcome]) :
    Tells x (x.recorded entry) P :=
  fun w _ => ⟨[entry (x.run w).1], rfl, h _⟩

theorem attempt (hx : Tells x y P) :
    Tells (Task.attempt x) (Task.attempt y) fun outcome calls => ∃ r, outcome = .ok r ∧ P r calls := by
  intro w calls
  obtain ⟨new, hy, hfits⟩ := hx w calls
  refine ⟨new, ?_, (x.run w).1, rfl, hfits⟩
  rw [Task.run_attempt, Task.run_attempt, hy]

/-- Tasks in sequence: the calls of the second come behind those of the first, if the first succeeds. -/
theorem bind (hx : Tells x y P) (herror : ∀ e calls, P (.error e) calls → R (.error e) calls)
    (hok : ∀ a first, P (.ok a) first → Tells (f a) (g a) fun outcome second => R outcome (first ++ second)) :
    Tells (x >>= f) (y >>= g) R := by
  intro w calls
  obtain ⟨first, hy, hfirst⟩ := hx w calls
  cases h : x.run w with
  | mk outcome u =>
    rw [h] at hy hfirst
    cases outcome with
    | error e =>
      rw [Task.run_bind_of_error h, Task.run_bind_of_error hy]
      exact ⟨first, rfl, herror e first hfirst⟩
    | ok a =>
      obtain ⟨second, hg, hsecond⟩ := hok a first hfirst u (calls ++ first)
      rw [Task.run_bind_of_ok h, Task.run_bind_of_ok hy, hg, List.append_assoc]
      exact ⟨first ++ second, rfl, hsecond⟩

end Tells

/-! ### One connection -/

/-- A task that makes one connection: it is open if the task succeeds, and else it was not opened or a call failed on
it. Then it is half made; where a connection is ready once it is open, `half` is 0. -/
inductive Attempt (half : Nat) : Except Failure κ → List (Call κ) → Prop
  | ready (c : κ) (calls : List (Call κ)) (ho : opened calls = [c]) (hb : broken calls = []) (hc : closed calls = []) :
    Attempt half (.ok c) calls
  | failed (e : Failure) (calls : List (Call κ)) (ho : opened calls = broken calls)
      (hb : (broken calls).length ≤ half) (hc : closed calls = []) (he : e ∈ failures calls) :
    Attempt half (.error e) calls

/-- A task on a connection that has been opened: if it fails, a call on the connection did. -/
structure Preparation (c : κ) (outcome : Except Failure α) (calls : List (Call κ)) : Prop where
  opened : opened calls = []
  closed : closed calls = []
  broken : ∀ a, outcome = .ok a → broken calls = []
  failed : ∀ e, outcome = .error e → Driver.broken calls = [c] ∧ e ∈ failures calls

theorem Preparation.failing {c : κ} {e : Failure} {calls : List (Call κ)}
    (h : Preparation c (.error e : Except Failure α) calls) : Preparation c (.error e : Except Failure β) calls :=
  ⟨h.opened, h.closed, by simp, fun e' he => by cases he; exact h.failed e rfl⟩

theorem Preparation.passing {c : κ} {a : α} {b : β} {calls : List (Call κ)} (h : Preparation c (.ok a) calls) :
    Preparation c (.ok b) calls := ⟨h.opened, h.closed, fun _ _ => h.broken a rfl, by simp⟩

theorem Preparation.append {c : κ} {a : α} {outcome : Except Failure β} {first second : List (Call κ)}
    (h : Preparation c (.ok a) first) (h' : Preparation c outcome second) :
    Preparation c outcome (first ++ second) := by
  have hfirst := h.broken a rfl
  refine ⟨by simp [h.opened, h'.opened], by simp [h.closed, h'.closed], fun b hb => ?_, fun e he => ?_⟩
  · simp [hfirst, h'.broken b hb]
  · obtain ⟨hbroken, hmem⟩ := h'.failed e he
    simp [hfirst, hbroken, hmem]

/-- A connection that is open and then prepared is ready. -/
theorem Attempt.prepared {half : Nat} {c : κ} {a : α} {first second : List (Call κ)}
    (h : Attempt half (.ok c) first) (h' : Preparation c (.ok a) second) : Attempt 1 (.ok c) (first ++ second) := by
  cases h with
  | ready _ _ ho hb hc =>
    exact .ready c _ (by simp [ho, h'.opened]) (by simp [hb, h'.broken a rfl]) (by simp [hc, h'.closed])

theorem Attempt.spoiled {half : Nat} {c : κ} {e : Failure} {first second : List (Call κ)}
    (h : Attempt half (.ok c) first) (h' : Preparation c (.error e : Except Failure α) second) :
    Attempt 1 (.error e : Except Failure κ) (first ++ second) := by
  obtain ⟨hbroken, hmem⟩ := h'.failed e rfl
  cases h with
  | ready _ _ ho hb hc =>
    exact .failed e _ (by simp [ho, hb, h'.opened, hbroken]) (by simp [hb, hbroken]) (by simp [hc, h'.closed])
      (by simp [hmem])

variable (d : Driver ω κ)

theorem tells_setOption (c : κ) (name value : String) :
    Tells (d.setOption c name value) (d.traced.setOption c name value) (Preparation c) := by
  refine Tells.recorded _ (fun outcome => .optionSet c name value (failure? outcome)) fun outcome => ?_
  cases outcome with
  | ok a => exact ⟨rfl, rfl, fun _ _ => rfl, by simp⟩
  | error e => exact ⟨rfl, rfl, by simp, fun e' he => ⟨rfl, by cases he; exact List.mem_singleton_self e⟩⟩

theorem tells_execute (c : κ) (sql : String) (values : Option (List Value)) :
    Tells (d.execute c sql values) (d.traced.execute c sql values) (Preparation c) := by
  refine Tells.recorded _ (fun outcome => .executed c sql values (failure? outcome)) fun outcome => ?_
  cases outcome with
  | ok a => exact ⟨rfl, rfl, fun _ _ => rfl, by simp⟩
  | error e => exact ⟨rfl, rfl, by simp, fun e' he => ⟨rfl, by cases he; exact List.mem_singleton_self e⟩⟩

theorem tells_connect (target : String) (options : Row) :
    Tells (d.connect target options) (d.traced.connect target options) (Attempt 0) := by
  refine Tells.recorded _ (.connected target options) fun outcome => ?_
  cases outcome with
  | ok c => exact .ready c _ rfl rfl rfl
  | error e => exact .failed e _ rfl (Nat.le_refl 0) rfl (List.mem_singleton_self e)

/-! ### Several connections -/

variable {d} {half : Nat} {one : Task ω κ} {one' : Task (ω × List (Call κ)) κ}

/-- Connections made one after the other: all that were asked for, or those that were ready before the failure. -/
inductive Series (half : Nat) (n : Nat) : Except Failure (List κ × Option Failure) → List (Call κ) → Prop
  | whole (cs : List κ) (calls : List (Call κ)) (hn : cs.length = n) (ho : opened calls = cs) (hb : broken calls = [])
      (hc : closed calls = []) : Series half n (.ok (cs, none)) calls
  | broken (cs : List κ) (e : Failure) (calls : List (Call κ)) (ho : opened calls = cs ++ Driver.broken calls)
      (hb : (Driver.broken calls).length ≤ half) (hc : closed calls = []) (he : e ∈ failures calls) :
    Series half n (.ok (cs, some e)) calls

theorem Series.cons {n : Nat} {c : κ} {others : List κ} {failure : Option Failure} {first second : List (Call κ)}
    (hfirst : Attempt half (.ok c) first) (hsecond : Series half n (.ok (others, failure)) second) :
    Series half (n + 1) (.ok (c :: others, failure)) (first ++ second) := by
  cases hfirst with
  | ready _ _ ho hb hc =>
    cases hsecond with
    | whole _ _ hn ho' hb' hc' =>
      exact .whole _ _ (by simp [hn]) (by simp [ho, ho']) (by simp [hb, hb']) (by simp [hc, hc'])
    | broken _ e _ ho' hb' hc' he =>
      exact .broken _ e _ (by simp [ho, hb, ho']) (by simpa [hb] using hb') (by simp [hc, hc']) (by simp [he])

theorem tells_openEach (h : Tells one one' (Attempt half)) (n : Nat) :
    Tells (openEach one n) (openEach one' n) (Series half n) := by
  induction n with
  | zero => exact .ofExcept (.ok ([], none)) (.whole [] [] rfl rfl rfl rfl)
  | succ n ih =>
    refine h.attempt.bind (by simp) fun r first hr => ?_
    obtain ⟨_, hr, hfirst⟩ := hr
    cases hr
    cases r with
    | error e =>
      refine .ofExcept (.ok ([], some e)) ?_
      cases hfirst with
      | failed _ _ ho hb hc he =>
        rw [List.append_nil]
        exact .broken [] e first ho hb hc he
    | ok c =>
      refine ih.bind (fun e calls hsecond => by cases hsecond) fun (others, failure) second hsecond => ?_
      refine .ofExcept (.ok (c :: others, failure)) ?_
      rw [List.append_nil]
      exact .cons hfirst hsecond

/-! ### The pool -/

theorem tells_closing (cs : List κ) :
    Tells (cs.forM d.close) (cs.forM d.traced.close) fun outcome calls => opened calls = [] ∧ broken calls = [] ∧
      (outcome = .ok ⟨⟩ ∧ closed calls = cs ∨ ∃ c e, .closed c (some e) ∈ calls) := by
  induction cs with
  | nil => exact Tells.ofExcept (.ok PUnit.unit) ⟨rfl, rfl, .inl ⟨rfl, rfl⟩⟩
  | cons c cs ih =>
    have hclose : Tells (d.close c) (d.traced.close c) fun outcome calls => calls = [.closed c (failure? outcome)] := by
      refine Tells.recorded _ (fun outcome => .closed c (failure? outcome)) fun outcome => ?_
      rfl
    refine Tells.bind hclose ?_ ?_
    · rintro e _ rfl
      exact ⟨rfl, rfl, .inr ⟨c, e, List.mem_singleton_self _⟩⟩
    · rintro ⟨⟩ _ rfl w calls
      obtain ⟨new, hrun, ho, hb, hends⟩ := ih w calls
      refine ⟨new, hrun, by rw [opened_append, ho]; rfl, by rw [broken_append, hb]; rfl, ?_⟩
      rcases hends with ⟨hok, hc⟩ | ⟨c', e, he⟩
      · exact .inl ⟨hok, by rw [closed_append, hc]; rfl⟩
      · exact .inr ⟨c', e, by simp [he]⟩

/-- What can come of opening a pool. -/
inductive Settled (half : Nat) (unreachable : Failure → Option Failure) (n : Nat) :
    Except Failure (List κ) → List (Call κ) → Prop
  /-- All connections are open. -/
  | whole (pool : List κ) (calls : List (Call κ)) (hn : pool.length = n) (ho : opened calls = pool)
      (hc : closed calls = []) : Settled half unreachable n (.ok pool) calls
  /-- The failure is passed on as it is. -/
  | passed (e : Failure) (calls : List (Call κ)) (he : e ∈ failures calls) (hu : unreachable e = none) :
    Settled half unreachable n (.error e) calls
  /-- What was ready has been closed. -/
  | undone (e f : Failure) (calls : List (Call κ)) (he : e ∈ failures calls) (hu : unreachable e = some f)
      (ho : opened calls = closed calls ++ broken calls) (hb : (broken calls).length ≤ half) :
    Settled half unreachable n (.error f) calls
  /-- A connection could not be closed. -/
  | stuck (c : κ) (e f : Failure) (calls : List (Call κ)) (he : .closed c (some e) ∈ calls) :
    Settled half unreachable n (.error f) calls

theorem tells_openAll (h : Tells one one' (Attempt half)) (unreachable : Failure → Option Failure) (n : Nat) :
    Tells (d.openAll one unreachable n) (d.traced.openAll one' unreachable n) (Settled half unreachable n) := by
  refine (tells_openEach h n).bind (fun e calls hseries => by cases hseries) fun (cs, failure) first hfirst => ?_
  cases hfirst with
  | whole _ _ hn ho hb hc =>
    refine .ofExcept (.ok cs) ?_
    rw [List.append_nil]
    exact .whole cs first hn ho hc
  | broken _ e _ ho hb hc he =>
    dsimp only
    cases hu : unreachable e with
    | none =>
      refine .ofExcept (.error e) ?_
      rw [List.append_nil]
      exact .passed e first he hu
    | some f =>
      refine (tells_closing (d := d) cs).bind ?_ ?_
      · rintro e' second ⟨-, -, ⟨hok, -⟩ | ⟨c, e'', hclose⟩⟩
        · cases hok
        · exact .stuck c e'' e' _ (by simp [hclose])
      · rintro ⟨⟩ second ⟨ho', hb', hends⟩
        refine .ofExcept (.error f) ?_
        rw [List.append_nil]
        rcases hends with ⟨-, hc'⟩ | ⟨c, e', hclose⟩
        · exact .undone e f _ (by simp [he]) hu (by simp [ho, ho', hc, hc', hb']) (by simpa [hb'] using hb)
        · exact .stuck c e' f _ (by simp [hclose])

/-! ### Failures that are caught -/

theorem Call.Within.caught {caught : Failure → Prop} {call : Call κ} {e : Failure} (h : call.Within caught)
    (he : call.failure? = some e) : caught e := by
  unfold Call.Within at h
  split at h
  · cases he
    exact h
  · cases he
    exact h
  · rw [h] at he
    cases he

/-- All or nothing, but for a connection that may be `left` behind: as many connections as were asked for are open and
are given, or the opening fails for the connection to the database, with what the driver said, and each connection that
was opened is closed once or is the one that is left. -/
inductive AllOrNothing (n : Nat) (message : DriverError → String) (left : List κ) (calls : List (Call κ)) :
    Except Failure (List κ) → Prop
  | all (pool : List κ) (hn : pool.length = n) (hnew : pool.Nodup) (ho : opened calls = pool) (hc : closed calls = []) :
    AllOrNothing n message left calls (.ok pool)
  | nothing (e : DriverError) (he : .driver e ∈ failures calls) (hnew : (closed calls ++ left).Nodup)
      (ho : opened calls = closed calls ++ left) (hl : left.length ≤ 1) :
    AllOrNothing n message left calls (.error (.connectionFailed (message e)))

end Driver

open Driver

variable {ω κ : Type} (d : Driver ω κ) (s : Settings)

namespace Sqlite

/-- Any error of the driver. -/
def Caught : Failure → Prop
  | .driver _ => True
  | _ => False

def message (e : DriverError) : String := "Cannot open SQLite database '" ++ s.database ++ "': " ++ e.text

theorem tells_connect : Tells (connect d s) (connect d.traced s) (Attempt 1) := by
  refine (d.tells_connect s.database [("timeout", s.poolTimeout)]).bind ?_ fun c first hfirst => ?_
  · intro e calls h
    cases h with
    | failed _ _ ho hb hc he => exact .failed e calls ho (Nat.le_succ_of_le hb) hc he
  · have hpragma : Tells (discard (d.execute c "PRAGMA foreign_keys=ON" none))
        (discard (d.traced.execute c "PRAGMA foreign_keys=ON" none)) (Preparation c) :=
      (d.tells_execute c "PRAGMA foreign_keys=ON" none).bind (fun e calls h => h.failing) fun _ second hsecond =>
        .ofExcept (.ok PUnit.unit) (by rw [List.append_nil]; exact hsecond.passing)
    have hoption := d.tells_setOption c "row_factory" "Row"
    refine hoption.bind (fun e second h => hfirst.spoiled h) fun _ second hsecond => ?_
    refine hpragma.bind (fun e third h => hfirst.spoiled (hsecond.append h)) fun _ third hthird => ?_
    refine .ofExcept (.ok c) ?_
    rw [List.append_nil]
    exact hfirst.prepared (hsecond.append hthird)

end Sqlite

namespace Postgresql

/-- An error about the operation of the database. -/
def Caught : Failure → Prop
  | .driver e => e.operational
  | _ => False

def message (e : DriverError) : String :=
  "Cannot connect to PostgreSQL database '" ++ s.database ++ "': " ++ e.text

theorem tells_connect (h : ∀ o ∈ s.extra, ¬ (ownOptions s).has o.1) :
    Tells (connect d s) (connect d.traced s) (Attempt 0) := by
  unfold connect
  split
  · rename_i hfound
    exact absurd (List.find?_some hfound) (h _ (List.mem_of_find?_eq_some hfound))
  · exact d.tells_connect (target s) (ownOptions s ++ s.extra)

end Postgresql

/-! ### The adapters -/

/-- With failures that are caught alone, a pool is opened in full or not at all. -/
theorem Driver.Settled.allOrNothing {half : Nat} {unreachable : Failure → Option Failure} {n : Nat}
    {outcome : Except Failure (List κ)} {calls : List (Driver.Call κ)} {left : List κ} {caught : Failure → Prop}
    {message : DriverError → String} (h : Settled half unreachable n outcome calls)
    (hcaught : ∀ e, caught e → ∃ e', e = .driver e' ∧ unreachable e = some (.connectionFailed (message e')))
    (hleft : (broken calls).length ≤ half → broken calls = left ∧ left.length ≤ 1)
    (hwithin : ∀ call ∈ calls, call.Within caught) (hnew : (opened calls).Nodup) :
    AllOrNothing n message left calls outcome := by
  have hfailures : ∀ e ∈ failures calls, caught e := by
    intro e he
    obtain ⟨call, hmem, hcall⟩ := List.mem_filterMap.1 he
    exact (hwithin call hmem).caught hcall
  cases h with
  | whole pool _ hn ho hc => exact .all pool hn (ho ▸ hnew) ho hc
  | passed e _ he hu =>
    obtain ⟨e', -, hsome⟩ := hcaught e (hfailures e he)
    rw [hu] at hsome
    cases hsome
  | undone e f _ he hu ho hb =>
    obtain ⟨e', rfl, hsome⟩ := hcaught e (hfailures e he)
    rw [hu] at hsome
    cases hsome
    obtain ⟨hbroken, hone⟩ := hleft hb
    rw [hbroken] at ho
    exact .nothing e' he (ho ▸ hnew) ho hone
  | stuck c e f _ he =>
    -- closing a connection is no call that may fail
    have hclosed : (Call.closed c (some e)).failure? = none := hwithin _ he
    cases hclosed

theorem Driver.tells_opening {d : Driver ω κ} {s : Settings} {x : Task ω κ} {y : Task (ω × List (Driver.Call κ)) κ}
    {half n : Nat} (hn : s.connections = .ok n) (h : Tells x y (Attempt half))
    (unreachable : Failure → Option Failure) :
    Tells (do d.openAll x unreachable (← Task.ofExcept s.connections))
      (do d.traced.openAll y unreachable (← Task.ofExcept s.connections)) (Settled half unreachable n) := by
  rw [hn]
  exact tells_openAll h unreachable n

/-- If nothing fails but what the adapter catches, and the driver makes a new connection each time, opening a pool is
all or nothing with PostgreSQL. With SQLite it is so but for a connection on which the statement that prepares it
failed: that one is left open. -/
theorem opening_settles {n : Nat} (hn : s.connections = .ok n) :
    Tells ((Sqlite.adapter d).openAll s) ((Sqlite.adapter d.traced).openAll s) (fun outcome calls =>
      (∀ call ∈ calls, call.Within Sqlite.Caught) → (opened calls).Nodup →
        AllOrNothing n (Sqlite.message s) (broken calls) calls outcome) ∧
    ((∀ o ∈ s.extra, ¬ (Postgresql.ownOptions s).has o.1) →
      Tells ((Postgresql.adapter d).openAll s) ((Postgresql.adapter d.traced).openAll s) (fun outcome calls =>
        (∀ call ∈ calls, call.Within Postgresql.Caught) → (opened calls).Nodup →
          AllOrNothing n (Postgresql.message s) [] calls outcome)) := by
  constructor
  · intro w calls
    obtain ⟨new, hrun, hsettled⟩ := tells_opening hn (Sqlite.tells_connect d s) (Sqlite.unreachable s) w calls
    refine ⟨new, hrun, hsettled.allOrNothing (fun e he => ?_) fun hb => ⟨rfl, hb⟩⟩
    cases e with
    | driver e => exact ⟨e, rfl, rfl⟩
    | _ => exact he.elim
  · intro hfree w calls
    have hconnect := Postgresql.tells_connect d s hfree
    obtain ⟨new, hrun, hsettled⟩ := tells_opening hn hconnect (Postgresql.unreachable s) w calls
    refine ⟨new, hrun, hsettled.allOrNothing (fun e he => ?_) fun hb => ?_⟩
    · cases e with
      | driver e =>
        have hoperational : e.operational := he
        exact ⟨e, rfl, by rw [Postgresql.unreachable, if_pos hoperational]; rfl⟩
      | _ => exact he.elim
    · exact ⟨List.length_eq_zero_iff.1 (Nat.le_zero.1 hb), by simp⟩

end RecordSql

namespace RecordSql.Rehearsal

open Driver

/-- Settings for a pool of a size. -/
def pooled (size : Int) : Settings :=
  ⟨"", none, none, none, none, "app", .integer size, .integer 30, 1800, false, []⟩

def refused : DriverError := ⟨"OperationalError", "connection refused", none, none, true⟩

def notDatabase : DriverError := ⟨"DatabaseError", "file is not a database", some "SQLITE_NOTADB", none, false⟩

/-- PostgreSQL refuses the last of three connections, and both others are closed. With SQLite the statement that
prepares the second fails, and the first is closed. -/
theorem opening_settles_refused :
    let s := pooled 3
    let w := Stage.empty.rehearse ⟨[none, none, some (.driver refused)], [], none, none, none⟩
    let w' := Stage.empty.rehearse ⟨[], [.ok .silent, .error (.driver notDatabase)], none, none, none⟩
    let calls := (((Postgresql.adapter driver.traced).openAll s).run (w, [])).2.2
    let calls' := (((Sqlite.adapter driver.traced).openAll s).run (w', [])).2.2
    (opened calls = [1, 2] ∧ closed calls = [1, 2] ∧
      AllOrNothing 3 (Postgresql.message s) [] calls (((Postgresql.adapter driver).openAll s).run w).1) ∧
    opened calls' = [1, 2] ∧ closed calls' = [1] ∧
      AllOrNothing 3 (Sqlite.message s) [2] calls' (((Sqlite.adapter driver).openAll s).run w').1 := by
  intro s w w' calls calls'
  have hcalls : calls = [.connected "dbname=app" (Postgresql.ownOptions s) (.ok 1),
      .connected "dbname=app" (Postgresql.ownOptions s) (.ok 2),
      .connected "dbname=app" (Postgresql.ownOptions s) (.error (.driver refused)), .closed 1 none,
      .closed 2 none] := rfl
  have hcalls' : calls' = [.connected "app" [("timeout", .integer 30)] (.ok 1), .optionSet 1 "row_factory" "Row" none,
      .executed 1 "PRAGMA foreign_keys=ON" none none, .connected "app" [("timeout", .integer 30)] (.ok 2),
      .optionSet 2 "row_factory" "Row" none,
      .executed 2 "PRAGMA foreign_keys=ON" none (some (.driver notDatabase)), .closed 1 none] := rfl
  obtain ⟨new, hrun, h⟩ := (opening_settles driver s rfl).2 (by simp [s, pooled]) w []
  obtain ⟨new', hrun', h'⟩ := (opening_settles driver s rfl).1 w' []
  obtain rfl : calls = new := congrArg (·.2.2) hrun
  obtain rfl : calls' = new' := congrArg (·.2.2) hrun'
  refine ⟨⟨rfl, rfl, h ?_ ?_⟩, rfl, rfl, h' ?_ ?_⟩
  · rw [hcalls]
    simp [Call.Within, Call.failure?, Outcome.failure?, Postgresql.Caught, refused]
  · show [1, 2].Nodup
    decide
  · rw [hcalls']
    simp [Call.Within, Call.failure?, Outcome.failure?, Sqlite.Caught]
  · show [1, 2].Nodup
    decide

/-- The statement that prepares the only connection to SQLite fails, and the connection is left open. -/
theorem left_open :
    let run := ((Sqlite.adapter driver.traced).openAll (pooled 1)).run
      (Stage.empty.rehearse ⟨[], [.error (.driver notDatabase)], none, none, none⟩, [])
    (∀ call ∈ run.2.2, call.Within Sqlite.Caught) ∧
      run.1 = .error (.connectionFailed "Cannot open SQLite database 'app': file is not a database") ∧
      opened run.2.2 = [1] ∧ closed run.2.2 = [] := by
  intro run
  have hcalls : run.2.2 = [.connected "app" [("timeout", .integer 30)] (.ok 1), .optionSet 1 "row_factory" "Row" none,
      .executed 1 "PRAGMA foreign_keys=ON" none (some (.driver notDatabase))] := rfl
  refine ⟨?_, by cbv, rfl, rfl⟩
  rw [hcalls]
  simp [Call.Within, Call.failure?, Outcome.failure?, Sqlite.Caught]

end RecordSql.Rehearsal
