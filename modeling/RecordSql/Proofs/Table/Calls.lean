import RecordSql.Proofs.Relation.Load
import RecordSql.Table.Builder

/-!
# What queries, insertions and updates send

A connector that keeps a list of its calls answers like the connector that it is made from. So a task has the same
outcome on both, and the list tells what it has sent: a query its own statement first and then those of its batched
relations, an insertion and an update their one statement.
-/

namespace RecordSql

variable {σ α β : Type}

/-- The second task does what the first does, and adds its calls to the list. -/
def Task.TracedBy (x : Task σ α) (y : Task (σ × List Call) α) : Prop :=
  ∀ s calls, ∃ later, y.run (s, calls) = ((x.run s).1, (x.run s).2, calls ++ later)

namespace Task.TracedBy

theorem ofExcept (outcome : Except Failure α) : TracedBy (σ := σ) (Task.ofExcept outcome) (Task.ofExcept outcome) :=
  fun s calls => ⟨[], by rw [run_ofExcept, run_ofExcept, List.append_nil]⟩

theorem note (c : Connector σ) (line : LogLine) : TracedBy (c.note line) (c.traced.note line) :=
  fun s calls => ⟨[], by rw [List.append_nil]; rfl⟩

theorem send (c : Connector σ) (statement : Statement) : TracedBy (c.run statement) (c.traced.run statement) :=
  fun s calls => ⟨_, Connector.run_traced c statement s calls⟩

variable {x : Task σ α} {y : Task (σ × List Call) α} {f : α → Task σ β} {g : α → Task (σ × List Call) β}

theorem bind (hx : TracedBy x y) (hf : ∀ a, TracedBy (f a) (g a)) : TracedBy (x >>= f) (y >>= g) := by
  intro s calls
  obtain ⟨first, hy⟩ := hx s calls
  cases h : x.run s with
  | mk outcome t =>
    rw [h] at hy
    cases outcome with
    | error e => exact ⟨first, by rw [run_bind_of_error h, run_bind_of_error hy]⟩
    | ok a =>
      obtain ⟨second, hg⟩ := hf a t (calls ++ first)
      exact ⟨first ++ second, by rw [run_bind_of_ok h, run_bind_of_ok hy, hg, List.append_assoc]⟩

end Task.TracedBy

/-- What is sent first comes first in the list. -/
theorem Connector.run_traced_bind {c : Connector σ} {f : List Row → Task σ α} {g : List Row → Task (σ × List Call) α}
    (hf : ∀ rows, Task.TracedBy (f rows) (g rows)) (statement : Statement) (s : σ) :
    ∃ later, (c.traced.run statement >>= g).run (s, []) =
      (((c.run statement >>= f).run s).1, ((c.run statement >>= f).run s).2,
        ⟨statement, ((c.run statement).run s).1⟩ :: later) := by
  have htraced := Connector.run_traced c statement s []
  cases h : (c.run statement).run s with
  | mk outcome t =>
    rw [h] at htraced
    cases outcome with
    | error e => exact ⟨[], by rw [Task.run_bind_of_error h, Task.run_bind_of_error htraced]; rfl⟩
    | ok rows =>
      obtain ⟨later, hg⟩ := hf rows t ([] ++ [⟨statement, .ok rows⟩])
      exact ⟨later, by rw [Task.run_bind_of_ok h, Task.run_bind_of_ok htraced, hg]; rfl⟩

/-! ### Relations -/

theorem Relation.tracedBy_exchange (c : Connector σ) (r : Relation) (keys : List Value) :
    Task.TracedBy (exchange c r keys) (exchange c.traced r keys) :=
  .bind (.ofExcept _) fun statement => .bind (.note c _) fun _ => .bind (.send c statement) fun _ => .ofExcept _

theorem Relation.tracedBy_fetch (c : Connector σ) (r : Relation) (rows : List Row) :
    Task.TracedBy (r.fetch c rows) (r.fetch c.traced rows) := by
  unfold fetch
  refine .bind (.ofExcept _) fun keys => ?_
  split
  · exact .ofExcept (.ok [])
  · exact tracedBy_exchange c r keys

theorem Relation.run_load_traced (c : Connector σ) (r : Relation) (records : List Value) (rows : List Row) (s : σ)
    (calls : List Call) : ∃ later, (r.load c.traced records rows).run (s, calls) =
      (((r.load c records rows).run s).1, ((r.load c records rows).run s).2, calls ++ later) := by
  obtain ⟨later, hf⟩ := r.tracedBy_fetch c rows s calls
  refine ⟨later, ?_⟩
  cases h : (r.fetch c rows).run s with
  | mk outcome t =>
    rw [h] at hf
    cases outcome with
    | error e => rw [run_load_of_error h, run_load_of_error hf]
    | ok groups => rw [run_load_of_ok h, run_load_of_ok hf]

namespace Query

variable {c : Connector σ} {q : Query} {r : Relation} {rest : List Relation} {a : Answer} {s t : σ}
  {records : List Value}

/-- Loading goes on with the records that the first relation was put into. -/
theorem run_loadAll_of_loaded (h : (r.load c a.records a.rows).run s = (⟨records, none⟩, t)) :
    (loadAll c q (r :: rest) a).run s = (loadAll c q rest (q.answer a.rows records)).run t :=
  (Task.run_bind_of_ok (Task.run_lift s _)).trans (by rw [h])

theorem run_loadAll_of_failed {e : Failure} (h : (r.load c a.records a.rows).run s = (⟨records, some e⟩, t)) :
    (loadAll c q (r :: rest) a).run s = (.error e, t) := by
  refine (Task.run_bind_of_ok (Task.run_lift s _)).trans ?_
  rw [h]
  rfl

theorem tracedBy_loadAll (c : Connector σ) (q : Query) (rs : List Relation) (a : Answer) :
    Task.TracedBy (loadAll c q rs a) (loadAll c.traced q rs a) := by
  induction rs generalizing a with
  | nil => exact .ofExcept (.ok a)
  | cons r rest ih =>
    intro s calls
    obtain ⟨first, hload⟩ := r.run_load_traced c a.records a.rows s calls
    cases h : (r.load c a.records a.rows).run s with
    | mk touched t =>
      obtain ⟨records, failure⟩ := touched
      rw [h] at hload
      cases failure with
      | some e => exact ⟨first, by rw [run_loadAll_of_failed h, run_loadAll_of_failed hload]⟩
      | none =>
        obtain ⟨later, hrest⟩ := ih (q.answer a.rows records) t (calls ++ first)
        exact ⟨first ++ later, by
          rw [run_loadAll_of_loaded h, run_loadAll_of_loaded hload, hrest, List.append_assoc]⟩

/-- What is done with the rows of a query: records are made of them, and relations are loaded into these. -/
def finish (c : Connector σ) (q : Query) (rs : List Relation) (rows : List Row) : Task σ Answer := do
  let records ← Task.ofExcept (mapRows q.table.plan (q.joined.map Relation.joinedPlan) rows)
  loadAll c q rs (q.answer rows records)

/-- The query with some of its batched relations only. -/
def getWith (c : Connector σ) (q : Query) (rs : List Relation) : Task σ Answer := do
  let statement ← Task.ofExcept q.statement
  let rows ← c.run statement
  finish c q rs rows

theorem get_eq (c : Connector σ) (q : Query) : q.get c = q.getWith c q.batched := rfl

theorem tracedBy_finish (c : Connector σ) (q : Query) (rs : List Relation) (rows : List Row) :
    Task.TracedBy (finish c q rs rows) (finish c.traced q rs rows) :=
  .bind (.ofExcept _) fun _ => tracedBy_loadAll c q _ _

/-- A query that has no statement sends nothing. -/
theorem run_get_of_error {e : Failure} (h : q.statement = .error e) (c : Connector σ) (s : σ) :
    (q.get c).run s = (.error e, s) := by
  rw [get_eq, getWith, h]
  rfl

theorem run_get_of_ok {statement : Statement} (h : q.statement = .ok statement) (c : Connector σ) (s : σ) :
    (q.get c).run s = (c.run statement >>= finish c q q.batched).run s := by
  rw [get_eq, getWith, h]
  rfl

/-- A query sends its statement first. -/
theorem run_get_traced {statement : Statement} (h : q.statement = .ok statement) (c : Connector σ) (s : σ) :
    ∃ later, (q.get c.traced).run (s, []) =
      (((q.get c).run s).1, ((q.get c).run s).2, ⟨statement, ((c.run statement).run s).1⟩ :: later) := by
  rw [run_get_of_ok h, run_get_of_ok h]
  exact Connector.run_traced_bind (tracedBy_finish c q q.batched) statement s

end Query

/-! ### Insertions and updates -/

/-- Runs a statement, if there is one, and maps its rows. -/
def Connector.store (c : Connector σ) (built : Except Failure Statement) (p : Plan) : Task σ Answer := do
  let statement ← Task.ofExcept built
  let rows ← c.run statement
  return ⟨← Task.ofExcept (mapRows p [] rows), rows⟩

theorem Insertion.run_eq (c : Connector σ) (i : Insertion) : i.run c = c.store i.statement i.table.plan := rfl

theorem Update.run_eq (c : Connector σ) (u : Update) : u.run c = c.store u.statement u.table.plan := rfl

/-- An insertion or an update sends its statement and nothing else. -/
theorem Connector.run_store_of_ok (c : Connector σ) (statement : Statement) (p : Plan) (s : σ) :
    (c.store (.ok statement) p).run s =
      (((c.run statement).run s).1 >>= fun rows => (mapRows p [] rows).map (⟨·, rows⟩),
        ((c.run statement).run s).2) := by
  rw [store]
  refine (Task.run_bind_of_ok (Task.run_ofExcept s (.ok statement))).trans ?_
  cases h : (c.run statement).run s with
  | mk outcome t =>
    cases outcome with
    | error e => rw [Task.run_bind_of_error h]; rfl
    | ok rows =>
      rw [Task.run_bind_of_ok h, Task.run_bind, Task.run_ofExcept, Outcome.ok_bind]
      cases mapRows p [] rows <;> rfl

/-- On a list of calls, that is the only one. -/
theorem Connector.run_store_traced (c : Connector σ) (built : Except Failure Statement) (p : Plan) (s : σ) :
    ∃ calls, (c.traced.store built p).run (s, []) = (((c.store built p).run s).1, ((c.store built p).run s).2, calls) ∧
      calls.map Call.statement = built.toOption.toList := by
  cases built with
  | error e => exact ⟨[], rfl, rfl⟩
  | ok statement =>
    refine ⟨[⟨statement, ((c.run statement).run s).1⟩], ?_, rfl⟩
    rw [run_store_of_ok, run_store_of_ok, run_traced]
    rfl

/-! ### Builders -/

/-- The statements that a builder sends: its own first, if it has one, and after it only a query sends more. -/
theorem Builder.run_traced (c : Connector σ) (b : Builder) (s : σ) :
    ∃ calls later : List Call,
      (b.run c.traced).run (s, []) = (((b.run c).run s).1, ((b.run c).run s).2, calls ++ later) ∧
      calls.map Call.statement = b.statement.toOption.toList ∧ ((∀ q, b ≠ .query q) → later = []) := by
  cases b with
  | query q =>
    cases h : q.statement with
    | error e =>
      refine ⟨[], [], ?_, by rw [statement, h]; rfl, fun _ => rfl⟩
      rw [run, run, Query.run_get_of_error h, Query.run_get_of_error h]
      rfl
    | ok statement =>
      obtain ⟨later, hget⟩ := Query.run_get_traced h c s
      exact ⟨[_], later, hget, by rw [Builder.statement, h]; rfl, fun hq => absurd rfl (hq q)⟩
  | insertion i =>
    obtain ⟨calls, hrun, hcalls⟩ := c.run_store_traced i.statement i.table.plan s
    exact ⟨calls, [], by rw [List.append_nil]; exact hrun, hcalls, fun _ => rfl⟩
  | update u =>
    obtain ⟨calls, hrun, hcalls⟩ := c.run_store_traced u.statement u.table.plan s
    exact ⟨calls, [], by rw [List.append_nil]; exact hrun, hcalls, fun _ => rfl⟩

end RecordSql
