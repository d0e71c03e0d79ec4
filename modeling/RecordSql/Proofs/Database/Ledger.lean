import Mathlib.Logic.Function.Basic
import RecordSql.Proofs.Database.Trace
import RecordSql.Rehearsal.Stage

/-!
# Pending and durable statements

A statement that was executed is pending on its connection until a commit makes it durable or a rollback drops it. An
engine shares its connections between statements, so what one statement leaves pending is committed by the next. Nothing
is left exactly if no commit fails and no statement is interrupted after it was executed: then the durable statements
are those that returned.
-/

namespace RecordSql

/-- A statement as it is sent: its text and its values. -/
abbrev Sent := String × List Value

/-- For each connection the statements that are pending on it, and those that have become durable. -/
structure Ledger (κ : Type) where
  pending : κ → List Sent
  durable : List Sent

namespace Ledger

variable {κ : Type} [DecidableEq κ]

/-- Nothing is pending and nothing durable. -/
def empty : Ledger κ := ⟨fun _ => [], []⟩

/-- What a call makes of the ledger. Only calls that succeed count. -/
def after (l : Ledger κ) : Adapter.Call κ → Ledger κ
  | .executed c sql values none => { l with pending := Function.update l.pending c (l.pending c ++ [(sql, values)]) }
  | .committed c none => ⟨Function.update l.pending c [], l.durable ++ l.pending c⟩
  | .rolledBack c none => { l with pending := Function.update l.pending c [] }
  | _ => l

/-- What a list of calls makes of the ledger. -/
def afterAll (l : Ledger κ) (calls : List (Adapter.Call κ)) : Ledger κ := calls.foldl after l

/-- Nothing is pending on any connection. -/
def Clean (l : Ledger κ) : Prop := ∀ c, l.pending c = []

variable {l : Ledger κ} {c : κ} {sql : String} {values : List Value}

theorem afterAll_append (l : Ledger κ) (first second : List (Adapter.Call κ)) :
    l.afterAll (first ++ second) = (l.afterAll first).afterAll second := List.foldl_append

theorem Clean.update (h : l.Clean) (c : κ) : Function.update l.pending c [] = l.pending := by
  rw [← h c, Function.update_eq_self]

/-- A statement that is committed becomes durable. -/
theorem Clean.committed (h : l.Clean) :
    l.afterAll [.executed c sql values none, .committed c none] = ⟨l.pending, l.durable ++ [(sql, values)]⟩ := by
  simp [afterAll, after, h c, h.update c]

theorem Clean.rolledBack (h : l.Clean) : l.afterAll [.rolledBack c none] = l := by
  simp [afterAll, after, h.update c]

/-- A statement that is rolled back leaves nothing. -/
theorem Clean.executed_rolledBack (h : l.Clean) (failure : Option Failure) :
    l.afterAll [.executed c sql values failure, .rolledBack c none] = l := by
  cases failure <;> simp [afterAll, after, h.update c]

/-- A statement that is neither committed nor rolled back stays pending. -/
theorem Clean.executed (h : l.Clean) :
    (l.afterAll [.executed c sql values none]).pending c = [(sql, values)] := by
  simp [afterAll, after, h c]

end Ledger

/-! ### Statements of an engine -/

/-- A statement that was run, what came of it, and the calls that it made. -/
structure Ran (κ : Type) where
  statement : Statement
  outcome : Except Failure (List Row)
  calls : List (Adapter.Call κ)

/-- The statement has ended its transaction: its commit did not fail, and it was not interrupted after it had been
executed. -/
structure Ran.Ended {κ : Type} (r : Ran κ) : Prop where
  committed : ∀ c f, .committed c (some f) ∉ r.calls
  uninterrupted : ∀ f, r.outcome = .error f → f.isIn .interrupt = true →
    ∀ c sql values, .executed c sql values none ∉ r.calls

namespace Engine

open Outcome (failure?)

variable {ω κ : Type} (e : Engine ω κ)

/-- What comes of statements that are run one after the other, whatever becomes of each. -/
def history (g : EngineState ω κ) : List Statement → List (Ran κ)
  | [] => []
  | s :: rest => ⟨s, ((e.run s).run g).1, e.callsOf s g⟩ :: history ((e.run s).run g).2 rest

/-- The state that statements lead to. -/
def afterRuns (g : EngineState ω κ) (runs : List Statement) : EngineState ω κ :=
  runs.foldl (fun g s => ((e.run s).run g).2) g

/-- The statements that returned, as they were sent. -/
def returned (history : List (Ran κ)) : List Sent :=
  history.filterMap fun r => match r.outcome, e.adapter.spelling r.statement with
    | .ok _, .ok sql => some (sql, r.statement.values)
    | _, _ => none

theorem returned_of_ok {r : Ran κ} {rows : List Row} {sql : String} (ho : r.outcome = .ok rows)
    (hs : e.adapter.spelling r.statement = .ok sql) : e.returned [r] = [(sql, r.statement.values)] := by
  simp [returned, ho, hs]

theorem returned_of_error {r : Ran κ} {f : Failure} (ho : r.outcome = .error f) : e.returned [r] = [] := by
  simp [returned, ho]

theorem acquireCalls_opened {g : EngineState ω κ} {x : Adapter.Call κ} (hx : x ∈ e.acquireCalls g) :
    ∃ outcome, x = .opened outcome := by
  rw [acquireCalls] at hx
  cases hp : g.pool with
  | some pool => simp [hp] at hx
  | none => exact ⟨_, by simpa [hp] using hx⟩

theorem ended_acquireCalls_append {g : EngineState ω κ} {s : Statement} {outcome : Except Failure (List Row)}
    {calls : List (Adapter.Call κ)} :
    Ran.Ended ⟨s, outcome, e.acquireCalls g ++ calls⟩ ↔ Ran.Ended ⟨s, outcome, calls⟩ := by
  have hmem : ∀ x, (∀ outcome, x ≠ .opened outcome) → (x ∈ e.acquireCalls g ++ calls ↔ x ∈ calls) := by
    intro x hx
    refine List.mem_append.trans (or_iff_right fun h => ?_)
    obtain ⟨o, ho⟩ := e.acquireCalls_opened h
    exact hx o ho
  constructor
  · intro h
    refine ⟨fun c f hx => h.committed c f ?_, fun f hf hi c sql values hx => h.uninterrupted f hf hi c sql values ?_⟩
    · exact (hmem _ (by simp)).2 hx
    · exact (hmem _ (by simp)).2 hx
  · intro h
    refine ⟨fun c f hx => h.committed c f ?_, fun f hf hi c sql values hx => h.uninterrupted f hf hi c sql values ?_⟩
    · exact (hmem _ (by simp)).1 hx
    · exact (hmem _ (by simp)).1 hx

variable [DecidableEq κ]

/-- The ledger after statements that were run. -/
def ledger (l : Ledger κ) (history : List (Ran κ)) : Ledger κ := l.afterAll (history.flatMap Ran.calls)

/-- No connection of the pool has anything pending, and the durable statements are those that returned. -/
structure Settled (l : Ledger κ) (history : List (Ran κ)) (pool : Option (Pool κ)) : Prop where
  pending : ∀ free, pool = some free → ∀ c ∈ free, (ledger l history).pending c = []
  durable : (ledger l history).durable = l.durable ++ e.returned history

/-- On its connection, a statement either has ended its transaction and leaves nothing, or it stays pending. -/
theorem Course.ended_or_pending {l : Ledger κ} (hl : l.Clean) {c : κ} {s : Statement}
    {outcome : Except Failure (List Row)} {calls : List (Adapter.Call κ)} (h : Course e.adapter c s outcome calls)
    (hr : ∀ c f, .rolledBack c (some f) ∉ calls) :
    (Ran.Ended ⟨s, outcome, calls⟩ ∧ l.afterAll calls = ⟨l.pending, l.durable ++ e.returned [⟨s, outcome, calls⟩]⟩) ∨
      (¬ Ran.Ended ⟨s, outcome, calls⟩ ∧ (l.afterAll calls).pending c ≠ []) := by
  cases h with
  | committed sql rows hs =>
    refine .inl ⟨⟨by simp, by simp⟩, ?_⟩
    rw [e.returned_of_ok rfl hs]
    exact hl.committed
  | uncommitted sql f =>
    refine .inr ⟨fun hended => hended.committed c f (by simp), ?_⟩
    show (l.afterAll [.executed c sql s.values none]).pending c ≠ []
    simp [hl.executed]
  | undone f hf sent hsent =>
    refine .inl ⟨⟨?_, ?_⟩, ?_⟩
    · rcases hsent with rfl | ⟨sql, failure, rfl⟩ <;> simp
    · rintro f' ⟨⟩ hi
      exact absurd hi hf
    · rw [e.returned_of_error rfl, List.append_nil]
      rcases hsent with rfl | ⟨sql, failure, rfl⟩
      · exact hl.rolledBack
      · exact hl.executed_rolledBack failure
  | notUndone f sent => exact absurd (by simp) (hr c f)
  | interrupted f hf sent hsent =>
    rcases hsent with rfl | ⟨sql, failure | failure, rfl⟩
    · exact .inl ⟨⟨by simp, by simp⟩, by simp [e.returned_of_error, Ledger.afterAll]⟩
    · refine .inr ⟨fun hended => hended.uninterrupted f rfl hf c sql s.values (by simp), ?_⟩
      simp [hl.executed]
    · exact .inl ⟨⟨by simp, by simp⟩, by simp [e.returned_of_error, Ledger.afterAll, Ledger.after]⟩

theorem afterAll_acquireCalls (l : Ledger κ) (g : EngineState ω κ) : l.afterAll (e.acquireCalls g) = l := by
  rw [acquireCalls]
  cases g.pool <;> rfl

/-- A statement either has ended its transaction and leaves nothing, or it leaves something pending on a connection that
is in the pool again. -/
theorem ended_or_pending {l : Ledger κ} (hl : l.Clean) (g : EngineState ω κ) (s : Statement)
    (hr : ∀ c f, .rolledBack c (some f) ∉ e.callsOf s g) :
    (Ran.Ended ⟨s, ((e.run s).run g).1, e.callsOf s g⟩ ∧
      l.afterAll (e.callsOf s g) =
        ⟨l.pending, l.durable ++ e.returned [⟨s, ((e.run s).run g).1, e.callsOf s g⟩]⟩) ∨
    (¬ Ran.Ended ⟨s, ((e.run s).run g).1, e.callsOf s g⟩ ∧
      ∃ free, ((e.run s).run g).2.pool = some free ∧ ∃ c ∈ free, (l.afterAll (e.callsOf s g)).pending c ≠ []) := by
  rw [callsOf_eq] at hr ⊢
  rw [run_run, ended_acquireCalls_append, Ledger.afterAll_append, afterAll_acquireCalls]
  cases hc : e.acquire.run g with
  | mk outcome h =>
    cases outcome with
    | error f => exact .inl ⟨⟨by simp, by simp⟩, by simp [e.returned_of_error, Ledger.afterAll]⟩
    | ok c =>
      obtain ⟨rest, hp⟩ := e.pool_of_acquire hc
      rw [hc] at hr
      rcases Course.ended_or_pending e hl (e.course_of_transact s c h.database)
        fun c f hx => hr c f (List.mem_append_right _ hx) with hended | ⟨hopen, hpending⟩
      · exact .inl hended
      · exact .inr ⟨hopen, rest.put c, by simp [hp], c, by simp [Pool.put], hpending⟩

theorem settled_cons {l : Ledger κ} {r : Ran κ} {history : List (Ran κ)} {pool : Option (Pool κ)}
    (h : l.afterAll r.calls = ⟨l.pending, l.durable ++ e.returned [r]⟩) :
    e.Settled l (r :: history) pool ↔ e.Settled ⟨l.pending, l.durable ++ e.returned [r]⟩ history pool := by
  have hledger : ledger l (r :: history) = ledger ⟨l.pending, l.durable ++ e.returned [r]⟩ history := by
    rw [ledger, List.flatMap_cons, Ledger.afterAll_append, h, ledger]
  have hreturned : e.returned (r :: history) = e.returned [r] ++ e.returned history :=
    List.filterMap_append (l := [r])
  constructor
  · intro hs
    refine ⟨hledger ▸ hs.pending, ?_⟩
    rw [← hledger, hs.durable, hreturned, List.append_assoc]
  · intro hs
    refine ⟨hledger ▸ hs.pending, ?_⟩
    rw [hledger, hs.durable, hreturned, List.append_assoc]

theorem settled_nil {l : Ledger κ} (hl : l.Clean) (pool : Option (Pool κ)) : e.Settled l [] pool :=
  ⟨fun _ _ c _ => hl c, by simp [returned, ledger, Ledger.afterAll]⟩

/-- From any ledger on which nothing is pending, all is settled at every point exactly if each statement ends its
transaction. -/
theorem settled_from_iff {l : Ledger κ} (hl : l.Clean) {g : EngineState ω κ} {runs : List Statement}
    (hr : ∀ r ∈ e.history g runs, ∀ c f, .rolledBack c (some f) ∉ r.calls) :
    (∀ before, before <+: runs → e.Settled l (e.history g before) (e.afterRuns g before).pool) ↔
      ∀ r ∈ e.history g runs, r.Ended := by
  induction runs generalizing g l with
  | nil =>
    refine ⟨fun _ r hmem => absurd hmem (by simp [history]), fun _ before hb => ?_⟩
    rw [List.prefix_nil.1 hb]
    exact e.settled_nil hl _
  | cons s rest ih =>
    rw [history, List.forall_mem_cons] at hr
    rw [history, List.forall_mem_cons]
    rcases e.ended_or_pending hl g s hr.1 with ⟨hended, hledger⟩ | ⟨hopen, free, hfree, c, hc, hpending⟩
    · have htail := ih (l := ⟨l.pending, l.durable ++ e.returned [⟨s, ((e.run s).run g).1, e.callsOf s g⟩]⟩) hl hr.2
      constructor
      · intro hall
        refine ⟨hended, htail.1 fun before hb => ?_⟩
        exact (e.settled_cons hledger).1 (hall (s :: before) (List.cons_prefix_cons.2 ⟨rfl, hb⟩))
      · rintro ⟨-, hall⟩ before hb
        cases before with
        | nil => exact e.settled_nil hl _
        | cons b before =>
          obtain ⟨rfl, hb'⟩ := List.cons_prefix_cons.1 hb
          exact (e.settled_cons hledger).2 (htail.2 hall before hb')
    · constructor
      · intro hall
        refine absurd ((hall [s] (by simp)).pending free hfree c hc) ?_
        simpa [ledger, history] using hpending
      · rintro ⟨hended, -⟩
        exact absurd hended hopen

/-- As long as rollbacks succeed, nothing is pending between statements and the durable statements are those that
returned, exactly if no commit fails and no statement is interrupted after it was executed. -/
theorem settled_along_iff (g : EngineState ω κ) (runs : List Statement)
    (hr : ∀ r ∈ e.history g runs, ∀ c f, .rolledBack c (some f) ∉ r.calls) :
    (∀ before, before <+: runs → e.Settled .empty (e.history g before) (e.afterRuns g before).pool) ↔
      ∀ r ∈ e.history g runs, r.Ended :=
  e.settled_from_iff (fun _ => rfl) hr

end Engine

/-! ### A scripted database -/

namespace Rehearsal

open Engine (ledger)

/-- An engine on a scripted database, with one connection. -/
def solo : Engine Stage Nat :=
  ⟨⟨"sqlite", none, none, none, none, ":memory:", .integer 1, .integer 30, 1800, false, []⟩, adapter "numeric"⟩

/-- Nothing is open yet. -/
def onStage (script : Script) : EngineState Stage Nat := ⟨none, Stage.empty.rehearse script⟩

def addUser (name : String) : Statement := ⟨"INSERT INTO users VALUES ($1);", [⟨.text, .text name⟩]⟩

/-- An error that the database is in use by others. -/
def busy : Failure := .driver ⟨"OperationalError", "database is locked", some "SQLITE_BUSY", none, true⟩

/-- If the first statement is refused, only the second is durable. -/
theorem settled_after_refusal :
    let g := onStage ⟨[], [.error busy], none, none, none⟩
    let runs := [addUser "Ann", addUser "Bob"]
    (∀ r ∈ solo.history g runs, ∀ c f, .rolledBack c (some f) ∉ r.calls) ∧ (∀ r ∈ solo.history g runs, r.Ended) ∧
    ∀ before, before <+: runs → solo.Settled .empty (solo.history g before) (solo.afterRuns g before).pool := by
  intro g runs
  have hrun : solo.history g runs =
      [⟨addUser "Ann", .error busy,
          [.opened (.ok [1]), .executed 1 "INSERT INTO users VALUES ($1);" [.text "Ann"] (some busy),
            .rolledBack 1 none]⟩,
        ⟨addUser "Bob", .ok [],
          [.executed 1 "INSERT INTO users VALUES ($1);" [.text "Bob"] none, .committed 1 none]⟩] := rfl
  have hr : ∀ r ∈ solo.history g runs, ∀ c f, .rolledBack c (some f) ∉ r.calls := by
    rw [hrun]
    simp
  have hended : ∀ r ∈ solo.history g runs, r.Ended := by
    rw [hrun, List.forall_mem_cons, List.forall_mem_singleton]
    exact ⟨⟨by simp, by simp⟩, ⟨by simp, by simp⟩⟩
  exact ⟨hr, hended, (solo.settled_along_iff g runs hr).2 hended⟩

/-- A statement whose commit failed stays pending, and the next statement on its connection makes it durable. -/
theorem durable_after_failed_commit :
    let g := onStage ⟨[], [], none, some busy, none⟩
    let runs := [addUser "Ann", addUser "Bob"]
    (solo.history g runs).map (·.outcome.isOk) = [false, true] ∧
    (solo.afterRuns g [addUser "Ann"]).pool = some [1] ∧
    (ledger .empty (solo.history g [addUser "Ann"])).pending 1 =
      [("INSERT INTO users VALUES ($1);", [.text "Ann"])] ∧
    (ledger .empty (solo.history g runs)).durable =
      [("INSERT INTO users VALUES ($1);", [.text "Ann"]), ("INSERT INTO users VALUES ($1);", [.text "Bob"])] :=
  ⟨rfl, rfl, rfl, rfl⟩

end Rehearsal

end RecordSql
