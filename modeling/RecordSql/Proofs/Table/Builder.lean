import RecordSql.Proofs.Table.Calls
import RecordSql.Proofs.Table.Request

/-!
# Builders with a kept statement

A builder keeps the statement that it has built until a clause is set. Whatever requests it has got, in whatever order
and with whatever failures among them, it is in the state that the last successful request for each clause has left, and
what it builds, sends and maps is what a builder without a kept statement would.
-/

namespace RecordSql

open Builder

namespace Builder

variable {b : Builder}

/-! ### The kept statement -/

/-- The statement that is kept. -/
def built : Builder → Option Statement
  | .query q => q.built
  | .insertion i => i.built
  | .update u => u.built

/-- The statement that is kept is the one that would be built. -/
def Coherent (b : Builder) : Prop := ∀ s ∈ b.built, b.compile = .ok s

theorem statement_eq (b : Builder) : b.statement = b.built.elim b.compile .ok := by
  cases b with
  | query q => rw [statement, Query.statement]; cases h : q.built <;> simp [built, compile, h]
  | insertion i => rw [statement, Insertion.statement]; cases h : i.built <;> simp [built, compile, h]
  | update u => rw [statement, Update.statement]; cases h : u.built <;> simp [built, compile, h]

theorem Coherent.statement_eq (h : b.Coherent) : b.statement = b.compile := by
  rw [Builder.statement_eq]
  cases hb : b.built with
  | none => rfl
  | some s => exact (h s hb).symm

theorem built_of_error {e : Failure} (h : b.statement = .error e) : b.built = none := by
  rw [statement_eq] at h
  cases hb : b.built with
  | none => rfl
  | some s =>
    rw [hb] at h
    cases h

theorem built_settle (b : Builder) (r : Request) : (b.settle r).built = none := by
  cases b <;> rfl

theorem built_keep (b : Builder) : b.keep.built = b.statement.toOption := by
  cases h : b.statement with
  | error e =>
    rw [← show b.built = (Except.error e : Except Failure Statement).toOption from built_of_error h]
    cases b with
    | query q => rw [keep, Query.keep, show q.statement = .error e from h]
    | insertion i => rw [keep, Insertion.keep, show i.statement = .error e from h]
    | update u => rw [keep, Update.keep, show u.statement = .error e from h]
  | ok s =>
    cases b with
    | query q => rw [keep, Query.keep, show q.statement = .ok s from h]; rfl
    | insertion i => rw [keep, Insertion.keep, show i.statement = .ok s from h]; rfl
    | update u => rw [keep, Update.keep, show u.statement = .ok s from h]; rfl

theorem compile_bare (b : Builder) : b.bare.compile = b.compile := by
  cases b <;> rfl

theorem bare_keep (b : Builder) : b.keep.bare = b.bare := by
  cases b with
  | query q => rw [keep, Query.keep]; split <;> rfl
  | insertion i => rw [keep, Insertion.keep]; split <;> rfl
  | update u => rw [keep, Update.keep]; split <;> rfl

theorem compile_keep (b : Builder) : b.keep.compile = b.compile := by
  rw [← compile_bare, bare_keep, compile_bare]

theorem Coherent.keep (h : b.Coherent) : b.keep.Coherent := by
  intro s hs
  rw [built_keep, h.statement_eq] at hs
  rw [compile_keep]
  cases hc : b.compile with
  | error e =>
    rw [hc] at hs
    cases hs
  | ok s' =>
    rw [hc] at hs
    cases hs
    rfl

/-- Setting a clause takes the kept statement away, and building keeps the one of the clauses. -/
theorem Coherent.next (h : b.Coherent) (r : Request) : (b.next r).Coherent := by
  rcases b.respond_cases r with hr | ⟨hr | ⟨e, hr⟩, -⟩
  · rw [next_of_ok hr]
    intro s hs
    rw [built_settle] at hs
    cases hs
  · rw [next_of_ok hr]
    exact h.keep
  · rw [next_of_error hr]
    exact h

theorem bare_next (b : Builder) (r : Request) : (b.next r).bare = b.settle r := by
  rcases b.respond_cases r with hr | ⟨hr | ⟨e, hr⟩, hs⟩
  · rw [next_of_ok hr]
    cases b <;> rfl
  · rw [next_of_ok hr, bare_keep, hs]
  · rw [next_of_error hr, hs]

theorem settle_bare (b : Builder) (r : Request) : b.bare.settle r = b.settle r := by
  cases b <;> rfl

/-! ### Any number of requests -/

theorem coherent_builder (o : Opening) : o.builder.Coherent := by
  cases o <;> exact fun s hs => absurd hs (by simp [Opening.builder, built, Query.all, Insertion.into, Update.of])

theorem coherent_after (o : Opening) (requests : List Request) : (o.builder.after requests).Coherent := by
  induction requests using List.reverseRecOn with
  | nil => exact coherent_builder o
  | append_singleton requests r ih =>
    rw [after_concat]
    exact ih.next r

theorem settle_settled (o : Opening) (requests : List Request) (r : Request) :
    (o.settled requests).settle r = o.settled (requests ++ [r]) := by
  cases o with
  | query t => exact congrArg Builder.query (Query.settle_settled t requests r)
  | insertion t columns => exact congrArg Builder.insertion (Insertion.settle_settled t columns requests r)
  | update t columns => exact congrArg Builder.update (Update.settle_settled t columns requests r)

/-- Requests leave what the last successful one for each clause has set. -/
theorem bare_after (o : Opening) (requests : List Request) : (o.builder.after requests).bare = o.settled requests := by
  -- from the end: the last request is settled on what those before it have left, kept statement or not
  induction requests using List.reverseRecOn with
  | nil => cases o <;> rfl
  | append_singleton requests r ih => rw [after_concat, bare_next, ← settle_bare, ih, settle_settled]

end Builder

/-! ### Running -/

section Run

variable {σ : Type}

theorem Query.loadAll_congr {q q' : Query} (h : q.table = q'.table) (c : Connector σ) (rs : List Relation)
    (a : Answer) : loadAll c q rs a = loadAll c q' rs a := by
  induction rs generalizing a with
  | nil => rfl
  | cons r rest ih =>
    have hanswer : ∀ rows records, q.answer rows records = q'.answer rows records := by
      intro rows records
      rw [answer, answer, h]
    rw [loadAll, loadAll]
    refine bind_congr fun touched => ?_
    cases touched.failure with
    | none => rw [hanswer, ih]
    | some e => rfl

theorem Builder.Coherent.run_eq {b : Builder} (h : b.Coherent) (c : Connector σ) : b.run c = b.bare.run c := by
  cases b with
  | query q =>
    have hfinish : Query.finish c q q.batched = Query.finish c { q with built := none } q.batched := by
      have htable : q.table = ({ q with built := none } : Query).table := rfl
      funext rows
      exact bind_congr fun records => Query.loadAll_congr htable c q.batched (q.answer rows records)
    rw [run, bare, run, Query.get_eq, Query.get_eq, Query.getWith, hfinish,
      show q.statement = q.compile from h.statement_eq]
    rfl
  | insertion i =>
    rw [run, bare, run, Insertion.run_eq, Insertion.run_eq, show i.statement = i.compile from h.statement_eq]
    rfl
  | update u =>
    rw [run, bare, run, Update.run_eq, Update.run_eq, show u.statement = u.compile from h.statement_eq]
    rfl

end Run

/-- What a query selects for a joined relation: the columns of its plan, each under the label of the plan. -/
def JoinedPlan.items (p : JoinedPlan) : List String :=
  p.plan.columns.map fun column =>
    qualify (relationsLabel ++ p.field) column ++ " AS " ++ quoteName (p.label ++ column)

theorem Query.compile_eq (q : Query) : q.compile = selectStatement q.table.name q.clauses
    ((q.joined.map Relation.joinedPlan).flatMap JoinedPlan.items) (q.joined.flatMap Relation.joins) := by
  rw [compile, List.flatMap_map]
  rfl

/-- A builder does what one in the same state without a kept statement does. Its first call sends the statement of that
state, and a query maps the rows with the plans of the relations whose columns this statement selects. -/
structure Builder.AsFresh (b fresh : Builder) : Prop where
  state : b.bare = fresh
  statement : b.statement = fresh.compile
  refused (r : Request) (e : Failure) : b.respond r = .error e → b.next r = b
  run {σ : Type} (c : Connector σ) : b.run c = fresh.run c
  sent {σ : Type} (c : Connector σ) (s : σ) : ∃ calls later : List Call,
    (b.run c.traced).run (s, []) = (((b.run c).run s).1, ((b.run c).run s).2, calls ++ later) ∧
      calls.map Call.statement = fresh.compile.toOption.toList ∧ ((∀ q, b ≠ .query q) → later = [])
  mapped (q : Query) : b = .query q →
    let plans := q.joined.map Relation.joinedPlan
    q.compile = selectStatement q.table.name q.clauses (plans.flatMap JoinedPlan.items)
      (q.joined.flatMap Relation.joins) ∧
    ∀ {σ : Type} (c : Connector σ), b.run c = do
      let statement ← Task.ofExcept q.compile
      let rows ← c.run statement
      let records ← Task.ofExcept (mapRows q.table.plan plans rows)
      Query.loadAll c q q.batched (q.answer rows records)

theorem Builder.Coherent.asFresh {b : Builder} (h : b.Coherent) : b.AsFresh b.bare where
  state := rfl
  statement := by rw [h.statement_eq, compile_bare]
  refused _ _ := next_of_error
  run c := h.run_eq c
  sent c s := by
    rw [compile_bare, ← h.statement_eq]
    exact Builder.run_traced c b s
  mapped q hq := by
    subst hq
    refine ⟨q.compile_eq, fun c => ?_⟩
    rw [Builder.run, Query.get_eq, Query.getWith, show q.statement = q.compile from h.statement_eq]
    rfl

/-- **Coherence of the kept statement.** After any requests to a query, an insertion or an update, refused ones, builds
and runs among them, the builder does what one does that was never built and has, for each clause, what the last
successful request has set. -/
theorem Builder.asFresh_after (o : Opening) (requests : List Request) :
    (o.builder.after requests).AsFresh (o.settled requests) :=
  bare_after o requests ▸ (coherent_after o requests).asFresh

end RecordSql
