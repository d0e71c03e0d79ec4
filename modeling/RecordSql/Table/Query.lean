import RecordSql.Relation.Batch
import RecordSql.Relation.Joined
import RecordSql.Table.Answer
import RecordSql.Table.Key

/-!
# Queries

A `Query` selects records of a table. Setting a clause replaces what it was; relations are kept by their field. The
statement is built once and kept until something is set.
-/

namespace RecordSql

structure Query where
  table : Table
  clauses : SelectClauses
  /-- The relations to load, and whether each is to be loaded later instead of joined. -/
  relations : List (Relation × Bool)
  built : Option Statement

namespace Query

/-- The query for all records of a table. -/
def all (table : Table) : Query := ⟨table, ⟨none, none, none⟩, [], none⟩

/-- Replaces the list of what is selected. -/
def select (q : Query) (columns : Clause) : Query :=
  { q with clauses := { q.clauses with columns := some columns }, built := none }

/-- Selects columns by their names, which have to be given. -/
def selectColumns (q : Query) (columns : Option (List String)) : Except Failure Query :=
  match columns with
  | some names => .ok (q.select (.ok (columnList names)))
  | none => .error (.columnRequired "SELECT")

/-- Replaces the join. -/
def join (q : Query) (join : Clause) : Query :=
  { q with clauses := { q.clauses with join := some join }, built := none }

/-- Replaces the condition. -/
def filter (q : Query) (condition : Clause) : Query :=
  { q with clauses := { q.clauses with filter := some condition }, built := none }

/-- Selects the records with the given keys. -/
def filterKey (q : Query) (key : Value) : Except Failure Query :=
  (q.table.keyCondition key).map fun c => q.filter (.ok c)

/-- The relations with one set; one of the same field is replaced in its place. -/
def setRelation (r : Relation) (later : Bool) : List (Relation × Bool) → List (Relation × Bool)
  | [] => [(r, later)]
  | (s, l) :: rest =>
    if s.field = r.field then (r, later) :: rest else (s, l) :: setRelation r later rest

/-- Loads a relation with the records. -/
def withRelation (q : Query) (r : Relation) (later : Bool) : Except Failure Query :=
  if r.source.name = q.table.name then
    .ok { q with relations := setRelation r later q.relations, built := none }
  else .error (.tableDefinition q.table.name
    ("relationship '" ++ r.field ++ "' belongs to '" ++ r.source.name ++ "'"))

/-- Loads several relations, joined where they can be. -/
def withRelations (q : Query) (rs : List Relation) : Except Failure Query :=
  rs.foldlM (fun q r => q.withRelation r false) q

/-- The relations that are joined to the query. -/
def joined (q : Query) : List Relation :=
  (q.relations.filter fun (r, later) => r.canJoin later).map (·.1)

/-- The relations that are loaded after the query, in order. -/
def batched (q : Query) : List Relation :=
  (q.relations.filter fun (r, later) => !r.canJoin later).map (·.1)

/-- The statement of the clauses as they are. -/
def compile (q : Query) : Except Failure Statement :=
  selectStatement q.table.name q.clauses (q.joined.flatMap Relation.joinedItems)
    (q.joined.flatMap Relation.joins)

/-- The statement, built anew only if none is kept. -/
def statement (q : Query) : Except Failure Statement :=
  match q.built with
  | some s => .ok s
  | none => q.compile

/-- The query with its statement kept, if it has one. -/
def keep (q : Query) : Query :=
  match q.statement with
  | .ok s => { q with built := some s }
  | .error _ => q

variable {σ : Type}

/-- Records and the rows that they were made of, with what has become of the cells that are such records. -/
def answer (q : Query) (rows : List Row) (records : List Value) : Answer :=
  ⟨records, q.table.read.putBack rows records⟩

/-- Loads relations one after the other into the records of an answer. -/
def loadAll (c : Connector σ) (q : Query) : List Relation → Answer → Task σ Answer
  | [], a => return a
  | r :: rest, a => do
    let touched ← (r.load c a.records a.rows : StateM σ Relation.Touched)
    match touched.failure with
    | some e => throw e
    | none => loadAll c q rest (q.answer a.rows touched.records)

/-- Runs the query. Relations that are not joined cost one statement each. -/
def get (c : Connector σ) (q : Query) : Task σ Answer := do
  let statement ← Task.ofExcept q.statement
  let rows ← c.run statement
  let records ← Task.ofExcept
    (mapRows q.table.plan (q.joined.map Relation.joinedPlan) rows)
  loadAll c q q.batched (q.answer rows records)

end Query

end RecordSql
