import RecordSql.Proofs.Table.Calls
import RecordSql.Proofs.Table.Construction
import RecordSql.Proofs.Table.Request

/-!
# Construction failures after something was sent

One expects of a construction failure that nothing was sent. Two places come after the first statement and can still
fail so: the keys of a batched relation, which are bound once the rows are there, and the record that comes back from an
insertion or an update, which is written to a row to refresh the caller's.
-/

namespace RecordSql

open Outcome

namespace Query

variable {σ : Type} {c : Connector σ} {q : Query} {s t : σ} {e : Failure}

/-- Loading relations fails for construction just when the keys of one of them cannot be bound, those before it having
been loaded. -/
theorem loadAll_construction_iff (hc : c.Sends) {rs : List Relation} (hr : ∀ r ∈ rs, r.target.Converts) (a : Answer) :
    (loadAll c q rs a).run s = (.error e, t) ∧ e.isIn .construction = true ↔
      ∃ before r after a', rs = before ++ r :: after ∧ (loadAll c q before a).run s = (.ok a', t) ∧
        ∃ keys, r.collectKeys a'.rows = .ok keys ∧ Param.ofValues keys = .error e := by
  -- the relation that fails is the first one, or the first has been loaded and it is among the rest
  induction rs generalizing a s with
  | nil =>
    constructor
    · rintro ⟨⟨⟩, -⟩
    · rintro ⟨before, r, after, a', h, -⟩
      simp at h
  | cons r rest ih =>
    have hrest : ∀ r ∈ rest, r.target.Converts := fun r hmem => hr r (by simp [hmem])
    have hr : r.target.Converts := hr r (by simp)
    cases h : (r.load c a.records a.rows).run s with
    | mk touched u =>
      obtain ⟨records, failure⟩ := touched
      cases failure with
      | some e' =>
        rw [run_loadAll_of_failed h]
        constructor
        · rintro ⟨⟨⟩, he⟩
          obtain ⟨rfl, hkeys⟩ := (Relation.load_construction_iff hc hr a.records).1 ⟨⟨records, h⟩, he⟩
          exact ⟨[], r, rest, a, rfl, rfl, hkeys⟩
        · rintro ⟨before, r', after, a', hsplit, hbefore, hkeys⟩
          cases before with
          | nil =>
            cases hsplit
            cases hbefore
            obtain ⟨⟨records', h'⟩, he⟩ := (Relation.load_construction_iff hc hr a.records).2 ⟨rfl, hkeys⟩
            rw [h] at h'
            cases h'
            exact ⟨rfl, he⟩
          | cons b before =>
            cases hsplit
            rw [run_loadAll_of_failed h] at hbefore
            cases hbefore
      | none =>
        rw [run_loadAll_of_loaded h, ih hrest]
        constructor
        · rintro ⟨before, r', after, a', rfl, hbefore, hkeys⟩
          exact ⟨r :: before, r', after, a', rfl, (run_loadAll_of_loaded h).trans hbefore, hkeys⟩
        · rintro ⟨before, r', after, a', hsplit, hbefore, hkeys⟩
          cases before with
          | nil =>
            cases hsplit
            cases hbefore
            obtain ⟨⟨records', h'⟩, -⟩ := (Relation.load_construction_iff hc hr a.records).2 ⟨rfl, hkeys⟩
            rw [h] at h'
            cases h'
          | cons b before =>
            cases hsplit
            rw [run_loadAll_of_loaded h] at hbefore
            exact ⟨before, r', after, a', rfl, hbefore, hkeys⟩

/-- Making records of rows does not fail for construction, so what is done with them does just when a relation does. -/
theorem finish_construction_iff (hc : c.Sends) (ht : q.table.Converts)
    (hr : ∀ e ∈ q.relations, e.1.target.Converts) (rows : List Row) :
    (finish c q q.batched rows).run s = (.error e, t) ∧ e.isIn .construction = true ↔
      ∃ before r after a, q.batched = before ++ r :: after ∧ (finish c q before rows).run s = (.ok a, t) ∧
        ∃ keys, r.collectKeys a.rows = .ok keys ∧ Param.ofValues keys = .error e := by
  have hsome : ∀ p, ∀ r ∈ (q.relations.filter p).map (·.1), r.target.Converts := by
    intro p r hmem
    obtain ⟨e, he, rfl⟩ := List.mem_map.1 hmem
    exact hr e (List.mem_filter.1 he).1
  have hjoined : ∀ r ∈ q.joined, r.target.Converts := hsome _
  have hbatched : ∀ r ∈ q.batched, r.target.Converts := hsome _
  cases hm : mapRows q.table.plan (q.joined.map Relation.joinedPlan) rows with
  | error e' =>
    have hfinish : ∀ rs, (finish c q rs rows).run s = (.error e', s) := by
      intro rs
      rw [finish, hm]
      rfl
    constructor
    · rintro ⟨h, he⟩
      rw [hfinish] at h
      cases h
      rw [constructed_mapRows ht hjoined rows e hm] at he
      cases he
    · rintro ⟨before, _, _, _, -, h, -⟩
      rw [hfinish] at h
      cases h
  | ok records =>
    have hfinish : ∀ rs, (finish c q rs rows).run s = (loadAll c q rs (q.answer rows records)).run s := by
      intro rs
      rw [finish, hm, Task.run_bind_of_ok (Task.run_ofExcept s _)]
    simp only [hfinish]
    exact loadAll_construction_iff hc hbatched (q.answer rows records)

theorem getWith_eq_ok {rs : List Relation} {a : Answer} : (q.getWith c rs).run s = (.ok a, t) ↔
    ∃ statement rows u, q.statement = .ok statement ∧ (c.run statement).run s = (.ok rows, u) ∧
      (finish c q rs rows).run u = (.ok a, t) := by
  simp only [getWith, Task.run_bind_eq_ok, Task.run_ofExcept_eq_ok]
  constructor
  · rintro ⟨statement, _, ⟨hs, rfl⟩, rows, u, hrun, hfinish⟩
    exact ⟨statement, rows, u, hs, hrun, hfinish⟩
  · rintro ⟨statement, rows, u, hs, hrun, hfinish⟩
    exact ⟨statement, s, ⟨hs, rfl⟩, rows, u, hrun, hfinish⟩

/-- The keys of a batched relation cannot be bound, once the query is done with the relations before it. -/
def Unbindable (c : Connector σ) (q : Query) (s : σ) : Prop :=
  ∃ before r after a t keys e, q.batched = before ++ r :: after ∧ (q.getWith c before).run s = (.ok a, t) ∧
    r.collectKeys a.rows = .ok keys ∧ Param.ofValues keys = .error e

/-- A query with a statement fails for construction just when the keys of a batched relation cannot be bound. -/
theorem get_construction_iff (hc : c.Sends) (ht : q.table.Converts)
    (hr : ∀ e ∈ q.relations, e.1.target.Converts) {statement : Statement} (hs : q.statement = .ok statement) :
    (∃ e t, (q.get c).run s = (.error e, t) ∧ e.isIn .construction = true) ↔ q.Unbindable c s := by
  constructor
  · rintro ⟨e, t, h, he⟩
    rw [run_get_of_ok hs] at h
    cases hrun : (c.run statement).run s with
    | mk outcome u =>
      cases outcome with
      | error e' =>
        rw [Task.run_bind_of_error hrun] at h
        cases h
        rw [hc statement s e (congrArg Prod.fst hrun)] at he
        cases he
      | ok rows =>
        rw [Task.run_bind_of_ok hrun] at h
        obtain ⟨before, r, after, a, hsplit, hbefore, keys, hk, hp⟩ :=
          (finish_construction_iff hc ht hr rows).1 ⟨h, he⟩
        have hget : (q.getWith c before).run s = (.ok a, t) :=
          getWith_eq_ok.2 ⟨statement, rows, u, hs, hrun, hbefore⟩
        exact ⟨before, r, after, a, t, keys, e, hsplit, hget, hk, hp⟩
  · rintro ⟨before, r, after, a, t, keys, e, hsplit, hget, hk, hp⟩
    obtain ⟨statement', rows, u, hs', hrun, hbefore⟩ := getWith_eq_ok.1 hget
    cases hs.symm.trans hs'
    obtain ⟨h, he⟩ := (finish_construction_iff hc ht hr rows).2 ⟨before, r, after, a, hsplit, hbefore, keys, hk, hp⟩
    refine ⟨e, t, ?_, he⟩
    rw [run_get_of_ok hs, Task.run_bind_of_ok hrun]
    exact h

end Query

/-- An operation has failed for construction after it had sent something. -/
def FailedLate (outcome : Except Failure Answer) (calls : List Call) : Prop :=
  ∃ e, outcome = .error e ∧ e.isIn .construction = true ∧ calls ≠ []

section Operations

variable {σ : Type} {c : Connector σ} {t : Table} (s : σ)

theorem Query.failedLate_iff (hc : c.Sends) {q : Query} (ht : q.table.Converts)
    (hr : ∀ e ∈ q.relations, e.1.target.Converts) :
    FailedLate ((q.get c.traced).run (s, [])).1 ((q.get c.traced).run (s, [])).2.2 ↔ q.Unbindable c s := by
  cases hs : q.statement with
  | error e =>
    rw [run_get_of_error hs]
    constructor
    · rintro ⟨_, -, -, hcalls⟩
      exact absurd rfl hcalls
    · rintro ⟨before, _, _, a, _, _, _, -, hbefore, -⟩
      obtain ⟨statement, _, _, hs', -⟩ := getWith_eq_ok.1 hbefore
      cases hs.symm.trans hs'
  | ok statement =>
    obtain ⟨later, hget⟩ := run_get_traced hs c s
    rw [← get_construction_iff hc ht hr hs, hget]
    constructor
    · rintro ⟨e, h, he, -⟩
      exact ⟨e, _, Prod.ext h rfl, he⟩
    · rintro ⟨e, t, h, he⟩
      exact ⟨e, congrArg Prod.fst h, he, by simp⟩

/-! ### Storing -/

/-- A value that refreshing a record has to write to a row, and for which the table has no writer. -/
def Table.Unwritable (t : Table) (v : Value) : Prop :=
  t.write = none ∧ v ≠ .null ∧ ∀ id entries, v ≠ .dict id entries

/-- Only a value that is unwritable has no row for want of construction. -/
theorem Table.rowOf_construction_iff (ht : t.Converts) {v : Value} (hv : v ≠ .null) :
    (∃ e, t.rowOf v = .error e ∧ e.isIn .construction = true) ↔ t.Unwritable v := by
  have hwrite := ht.write
  unfold rowOf Unwritable
  split
  · constructor
    · rintro ⟨_, ⟨⟩, -⟩
    · rintro ⟨-, -, h⟩
      exact absurd rfl (h _ _)
  · rename_i hdict hnone
    exact ⟨fun _ => ⟨hnone, hv, hdict⟩, fun _ => ⟨_, rfl, rfl⟩⟩
  · rename_i write hdict hsome
    constructor
    · rintro ⟨e, h, he⟩
      rw [hwrite write _ hsome e h] at he
      cases he
    · rintro ⟨hnone, -⟩
      rw [hsome] at hnone
      cases hnone

theorem Table.constructed_assignAll (row : Dict) (record : Value) {record' : Value} {e : Failure}
    (h : assignAll record row = (record', some e)) : e.isIn .construction = false := by
  have hassign : ∀ record k v, Constructed (assignAt record k v) := by
    intro record k v
    unfold assignAt
    split
    · exact constructed_ok _
    · split
      · exact Value.constructed_assign _ _ v
      · exact constructed_error.2 rfl
  induction row generalizing record with
  | nil => cases h
  | cons entry row ih =>
    obtain ⟨k, v⟩ := entry
    rw [assignAll] at h
    cases ha : assignAt record k v with
    | error e' =>
      rw [ha] at h
      cases h
      exact hassign _ k v e ha
    | ok next =>
      rw [ha] at h
      exact ih next h

theorem Table.refresh_construction_iff (ht : t.Converts) (record : Value) (a : Answer) :
    (∃ e, (t.refresh record a).outcome = .error e ∧ e.isIn .construction = true) ↔ t.Unwritable a.first := by
  unfold refresh
  generalize a.first = v
  split
  · constructor
    · rintro ⟨_, ⟨⟩, -⟩
    · rintro ⟨-, h, -⟩
      exact absurd rfl h
  · rename_i hnull
    rw [← rowOf_construction_iff ht hnull]
    cases hrow : t.rowOf v with
    | error e => simp
    | ok row =>
      have hnone : ¬ ∃ e, (Except.ok row : Except Failure Dict) = .error e ∧ e.isIn .construction = true := by
        rintro ⟨_, ⟨⟩, -⟩
      refine iff_of_false ?_ hnone
      rintro ⟨e, h, he⟩
      -- a value that has a row is written; whatever fails now is in putting the row into the record
      cases hall : assignAll record row with
      | mk record' failure =>
        cases failure with
        | none =>
          simp only [hall] at h
          cases h
        | some e' =>
          simp only [hall] at h
          cases h
          rw [constructed_assignAll row record hall] at he
          cases he

theorem Table.run_store_of_ok {record : Value} {task : Task σ Answer} {a : Answer} {s' : σ}
    (h : task.run s = (.ok a, s')) : (t.store record task).run s = (t.refresh record a, s') := by
  rw [store, StateT.run_bind, show StateT.run (ExceptT.run task) s = (.ok a, s') from h]
  rfl

theorem Table.run_store_of_error {record : Value} {task : Task σ Answer} {e : Failure} {s' : σ}
    (h : task.run s = (.error e, s')) : (t.store record task).run s = (⟨.error e, record⟩, s') := by
  rw [store, StateT.run_bind, show StateT.run (ExceptT.run task) s = (.error e, s') from h]
  rfl

theorem Connector.constructed_store (hc : c.Sends) (ht : t.Converts) (statement : Statement) :
    Task.Constructed (c.store (.ok statement) t.plan) :=
  .bind (hc statement) fun rows => .bind (.ofExcept (constructed_mapRows ht (List.forall_mem_nil _) rows)) fun _ =>
    fun _ => constructed_ok _

/-- Storing a record fails late just when the record that comes back cannot be written. -/
theorem Table.failedLate_store_iff (hc : c.Sends) (ht : t.Converts) (record : Value)
    (built : Except Failure Statement) :
    FailedLate ((t.store record (c.traced.store built t.plan)).run (s, [])).1.outcome
        ((t.store record (c.traced.store built t.plan)).run (s, [])).2.2 ↔
      ∃ a s', (c.store built t.plan).run s = (.ok a, s') ∧ t.Unwritable a.first := by
  obtain ⟨calls, hrun, hcalls⟩ := c.run_store_traced built t.plan s
  cases h : (c.store built t.plan).run s with
  | mk outcome u =>
    rw [h] at hrun
    cases outcome with
    | error e =>
      rw [run_store_of_error _ hrun]
      refine iff_of_false ?_ (by rintro ⟨_, _, ⟨⟩, -⟩)
      rintro ⟨_, ⟨⟩, he, hne⟩
      cases built with
      | error e' => exact hne (List.map_eq_nil_iff.1 hcalls)
      | ok statement =>
        rw [c.constructed_store hc ht statement s e (congrArg Prod.fst h)] at he
        cases he
    | ok a =>
      rw [run_store_of_ok _ hrun]
      have hne : calls ≠ [] := by
        rintro rfl
        cases built with
        | error e => cases h
        | ok statement => cases hcalls
      constructor
      · rintro ⟨e, he, hconstruction, -⟩
        exact ⟨a, u, rfl, (refresh_construction_iff ht record a).1 ⟨e, he, hconstruction⟩⟩
      · rintro ⟨_, _, ⟨⟩, hv⟩
        obtain ⟨e, he, hconstruction⟩ := (refresh_construction_iff ht record a).2 hv
        exact ⟨e, he, hconstruction, hne⟩

/-- The statement that inserts a record. -/
def Table.creating (t : Table) (record : Value) : Except Failure Statement := do
  let i ← (Insertion.into t none).values record
  i.returningAll.statement

/-- The statement that updates a record. -/
def Table.writing (t : Table) (record : Value) : Except Failure Statement := do
  let row ← t.rowOf record
  let u ← t.saving row
  u.statement

theorem Insertion.table_of_values {i j : Insertion} {records : Value} (h : i.values records = .ok j) :
    j.table = i.table := by
  rw [values_eq] at h
  obtain ⟨stored, -, rfl⟩ := Outcome.map_eq_ok.1 h
  rfl

theorem Update.table_of_set {u v : Update} {record : Value} (h : u.set record = .ok v) : v.table = u.table := by
  rw [set_eq] at h
  obtain ⟨stored, -, rfl⟩ := Outcome.map_eq_ok.1 h
  rfl

theorem Table.table_of_saving {row : Dict} {u : Update} (h : t.saving row = .ok u) : u.table = t := by
  unfold saving at h
  obtain ⟨key, -, h⟩ := Outcome.bind_eq_ok.1 h
  obtain ⟨v, hset, h⟩ := Outcome.bind_eq_ok.1 h
  obtain ⟨condition, -, rfl⟩ := Outcome.map_eq_ok.1 h
  exact Update.table_of_set hset

theorem Table.create_eq (c : Connector σ) (t : Table) (record : Value) :
    t.create c record = t.store record (c.store (t.creating record) t.plan) := by
  rw [create, creating]
  cases h : (Insertion.into t none).values record with
  | error e => rfl
  | ok i =>
    rw [Task.ofExcept_ok_bind, Outcome.ok_bind, Insertion.run_eq,
      show i.returningAll.table = t from Insertion.table_of_values h]

theorem Table.save_eq (c : Connector σ) (t : Table) (record : Value) :
    t.save c record = t.store record (c.store (t.writing record) t.plan) := by
  rw [save, writing]
  cases t.rowOf record with
  | error e => rfl
  | ok row =>
    rw [Task.ofExcept_ok_bind, Outcome.ok_bind]
    cases h : t.saving row with
    | error e => rfl
    | ok u => rw [Task.ofExcept_ok_bind, Outcome.ok_bind, Update.run_eq, table_of_saving h]

/-! ### Finding -/

/-- The query that finds records. -/
def Table.finding (t : Table) (key : Value) (relations : List Relation) : Except Failure Query := do
  let q ← (Query.all t).withRelations relations
  q.filterKey key

theorem Table.find_eq (c : Connector σ) (t : Table) (key : Value) (relations : List Relation) :
    t.find c key relations = Task.ofExcept (t.finding key relations) >>= Query.get c := by
  rw [find, finding]
  cases (Query.all t).withRelations relations with
  | error e => rfl
  | ok q => rw [Task.ofExcept_ok_bind, Outcome.ok_bind]

theorem Query.mem_setRelation {r : Relation} {later : Bool} {rs : List (Relation × Bool)} {e : Relation × Bool}
    (h : e ∈ setRelation r later rs) : e = (r, later) ∨ e ∈ rs := by
  induction rs with
  | nil => exact .inl (List.mem_singleton.1 h)
  | cons x rs ih =>
    obtain ⟨x, l⟩ := x
    rw [setRelation] at h
    split at h
    · rcases List.mem_cons.1 h with h | h
      · exact .inl h
      · exact .inr (List.mem_cons_of_mem _ h)
    · rcases List.mem_cons.1 h with h | h
      · exact .inr (h ▸ List.mem_cons_self)
      · exact (ih h).imp_right (List.mem_cons_of_mem _)

/-- A query with relations is one on the same table, and has no others. -/
theorem Query.withRelations_eq_ok {rs : List Relation} {q q' : Query} (h : q.withRelations rs = .ok q') :
    q'.table = q.table ∧ ∀ e ∈ q'.relations, e ∈ q.relations ∨ e.1 ∈ rs := by
  induction rs generalizing q with
  | nil =>
    cases h
    exact ⟨rfl, fun e he => .inl he⟩
  | cons r rs ih =>
    rw [withRelations, List.foldlM_cons] at h
    obtain ⟨next, hnext, h⟩ := Outcome.bind_eq_ok.1 h
    obtain ⟨htable, hrelations⟩ := ih h
    unfold withRelation at hnext
    split at hnext
    · cases hnext
      refine ⟨htable, fun e he => ?_⟩
      rcases hrelations e he with hset | hmem
      · rcases mem_setRelation hset with rfl | hold
        · exact .inr (by simp)
        · exact .inl hold
      · exact .inr (List.mem_cons_of_mem _ hmem)
    · cases hnext

theorem Table.finding_eq_ok {key : Value} {relations : List Relation} {q : Query}
    (h : t.finding key relations = .ok q) : q.table = t ∧ ∀ e ∈ q.relations, e.1 ∈ relations := by
  obtain ⟨q', hq, h⟩ := Outcome.bind_eq_ok.1 h
  obtain ⟨condition, -, rfl⟩ := Outcome.map_eq_ok.1 h
  obtain ⟨htable, hrelations⟩ := Query.withRelations_eq_ok hq
  exact ⟨htable, fun e he => (hrelations e he).resolve_left (by simp [Query.all])⟩

theorem Table.failedLate_find_iff (hc : c.Sends) (ht : t.Converts) (key : Value) {relations : List Relation}
    (hr : ∀ r ∈ relations, r.target.Converts) :
    FailedLate ((t.find c.traced key relations).run (s, [])).1 ((t.find c.traced key relations).run (s, [])).2.2 ↔
      ∃ q, t.finding key relations = .ok q ∧ q.Unbindable c s := by
  rw [find_eq]
  cases h : t.finding key relations with
  | error e =>
    rw [Task.ofExcept_error_bind, Task.run_ofExcept]
    refine iff_of_false ?_ (by rintro ⟨_, ⟨⟩, -⟩)
    rintro ⟨_, -, -, hcalls⟩
    exact hcalls rfl
  | ok q =>
    obtain ⟨rfl, hrelations⟩ := finding_eq_ok h
    rw [Task.ofExcept_ok_bind, Query.failedLate_iff s hc ht fun e he => hr e.1 (hrelations e he)]
    simp

/-- What sends one statement and maps its rows does not fail late. -/
theorem Connector.not_failedLate_store (hc : c.Sends) (ht : t.Converts) (built : Except Failure Statement) :
    ¬ FailedLate ((c.traced.store built t.plan).run (s, [])).1 ((c.traced.store built t.plan).run (s, [])).2.2 := by
  obtain ⟨calls, hrun, hcalls⟩ := c.run_store_traced built t.plan s
  rw [hrun]
  rintro ⟨e, he, hconstruction, hne⟩
  cases built with
  | error e' => exact hne (List.map_eq_nil_iff.1 hcalls)
  | ok statement =>
    rw [c.constructed_store hc ht statement s e he] at hconstruction
    cases hconstruction

end Operations

/-- **Construction failures and calls.** With a connector and converters that have no construction failures of their
own, getting and finding fail for construction after a call just when the keys of a batched relation cannot be bound;
creating and saving, just when the record has been stored and what comes back is a value that the table cannot write;
and insertions and updates never do. -/
theorem failed_late_iff {σ : Type} {c : Connector σ} {t : Table} (hc : c.Sends) (ht : t.Converts) (s : σ) :
    (∀ q : Query, q.table = t → (∀ e ∈ q.relations, e.1.target.Converts) →
      let ran := (q.get c.traced).run (s, [])
      FailedLate ran.1 ran.2.2 ↔ q.Unbindable c s) ∧
    (∀ key relations, (∀ r ∈ relations, r.target.Converts) →
      let ran := (t.find c.traced key relations).run (s, [])
      FailedLate ran.1 ran.2.2 ↔ ∃ q, t.finding key relations = .ok q ∧ q.Unbindable c s) ∧
    (∀ record,
      let ran := (t.create c.traced record).run (s, [])
      FailedLate ran.1.outcome ran.2.2 ↔
        ∃ a s', (c.store (t.creating record) t.plan).run s = (.ok a, s') ∧ t.Unwritable a.first) ∧
    (∀ record,
      let ran := (t.save c.traced record).run (s, [])
      FailedLate ran.1.outcome ran.2.2 ↔
        ∃ a s', (c.store (t.writing record) t.plan).run s = (.ok a, s') ∧ t.Unwritable a.first) ∧
    (∀ i : Insertion, i.table = t →
      let ran := (i.run c.traced).run (s, [])
      ¬ FailedLate ran.1 ran.2.2) ∧
    (∀ u : Update, u.table = t →
      let ran := (u.run c.traced).run (s, [])
      ¬ FailedLate ran.1 ran.2.2) := by
  refine ⟨?_, ?_, ?_, ?_, ?_, ?_⟩
  · rintro q rfl hr
    exact q.failedLate_iff s hc ht hr
  · exact fun key relations hr => t.failedLate_find_iff s hc ht key hr
  · intro record
    rw [Table.create_eq]
    exact t.failedLate_store_iff s hc ht record (t.creating record)
  · intro record
    rw [Table.save_eq]
    exact t.failedLate_store_iff s hc ht record (t.writing record)
  · rintro i rfl
    rw [Insertion.run_eq]
    exact c.not_failedLate_store s hc ht i.statement
  · rintro u rfl
    rw [Update.run_eq]
    exact c.not_failedLate_store s hc ht u.statement

/-- Users of whom only the name is read, and who are written as dictionaries. -/
def namedUsers : Table := ⟨"users", ["id"], ["id", "name"], ["name"], .cell "name", none⟩

theorem sends_answering (replies : List Row) : (Relation.answering replies).Sends := fun _ _ => constructed_ok replies

theorem converts_namedUsers : namedUsers.Converts where
  read row := by
    show Constructed (Reader.cellOf "name" row)
    unfold Reader.cellOf
    split
    · exact constructed_ok _
    · exact constructed_error.2 rfl
  write _ _ h := nomatch h

/-- A user is inserted, and then the name that comes back is found to be no row. -/
theorem failed_late_create :
    let ran := (namedUsers.create (Relation.answering [[("name", .text "Ann")]]).traced
      (.dict none [(.text "name", .text "Ann")])).run ((), [])
    FailedLate ran.1.outcome ran.2.2 := by
  have hvalues : (Insertion.into namedUsers none).values (.dict none [(.text "name", .text "Ann")]) =
      .ok ⟨namedUsers, [.text "name"], [.text "name"], ⟨[[.text "Ann"]], none⟩, none⟩ := by
    simp [Insertion.values, Insertion.into, Insertion.generatedKey?, Insertion.writtenWithout, Insertion.cells,
      namedUsers, Table.rowOf, Dict.get?, Value.checkKey, Value.eqv, Value.scalarEq, Value.toInt?, Value.toText?]
  have hparams : Param.ofValues ([[Value.text "Ann"]].flatMap boundValues) = .ok [⟨.text, .text "Ann"⟩] := rfl
  have hnames : [Value.text "name"].mapM columnName = .ok ["name"] := rfl
  have hreturning : ∀ f ∈ some (Fragment.plain "*"), f.Balanced := by
    rintro f ⟨⟩
    exact Fragment.balanced_plain.2 (by decide)
  have hs := insertStatement_of_supported "users" (by simp) hparams hnames hreturning
  obtain ⟨statement, hcreating⟩ : ∃ statement,
      namedUsers.creating (.dict none [(.text "name", .text "Ann")]) = .ok statement := by
    rw [Table.creating, hvalues, Outcome.ok_bind]
    exact ⟨_, hs⟩
  refine ((failed_late_iff (sends_answering _) converts_namedUsers ()).2.2.1 _).2
    ⟨⟨[.text "Ann"], [[("name", .text "Ann")]]⟩, (), ?_, rfl, by simp [Answer.first], by simp [Answer.first]⟩
  rw [hcreating]
  rfl

/-- The posts of a user whose key cannot be bound: the user is selected, and then finding fails for construction. -/
theorem failed_late_find :
    let ran := (Relation.postsOfUsers.source.find (Relation.answering [[("id", .tuple [.integer 1])]]).traced
      (.integer 1) [Relation.postsOfUsers]).run ((), [])
    FailedLate ran.1 ran.2.2 := by
  let users := Relation.postsOfUsers.source
  let condition : Fragment := ⟨qualify "users" "id" ++ " " ++ "=" ++ " ?", [⟨.integer, .integer 1⟩]⟩
  let q : Query := ⟨users, ⟨none, none, some (.ok condition)⟩, [(Relation.postsOfUsers, false)], none⟩
  let row : Row := [("id", .tuple [.integer 1])]
  have hconverts : ∀ t ∈ [users, Relation.postsOfUsers.target], t.Converts := by
    simp only [List.forall_mem_cons, List.not_mem_nil, false_implies, implies_true, and_true]
    exact ⟨⟨fun _ => constructed_ok _, fun _ _ h => nomatch h⟩, ⟨fun _ => constructed_ok _, fun _ _ h => nomatch h⟩⟩
  have hcondition : condition.Balanced := ⟨by decide, by decide⟩
  have hq : users.finding (.integer 1) [Relation.postsOfUsers] = .ok q := rfl
  have hs : selectStatement "users" ⟨(none : Option Fragment).map .ok, (none : Option Fragment).map .ok,
      (some condition).map .ok⟩ [] [] = .ok _ :=
    selectStatement_of_balanced "users" (by simp) (by simp) (by simpa using hcondition) (by simp) (by simp)
  refine (users.failedLate_find_iff () (sends_answering _) (hconverts _ (by simp)) (.integer 1)
    (by simpa using hconverts _ (by simp))).2 ⟨q, hq, [], Relation.postsOfUsers, [], q.answer [row] [row.toValue], (),
      [.tuple [.integer 1]], .unsupportedValue "tuple" none, rfl, ?_, ?_, rfl⟩
  · exact Query.getWith_eq_ok.2 ⟨_, [row], (), hs, rfl, rfl⟩
  · simp [Relation.collectKeys, Relation.parentValue, Relation.parentKey, Relation.sourceHoldsForeignKey,
      Relation.postsOfUsers, Query.answer, Reader.putBack, Reader.copy, Reader.ofFunction, Row.get?, Value.isNull,
      Value.checkKey, Value.checkKeys, q, users, row]

end RecordSql
