import RecordSql.Table.Insertion
import RecordSql.Table.Query
import RecordSql.Table.Update

/-!
# Finding and storing records

`find` gets records by key. `create` inserts a record and `save` updates it by its own key; both then refresh the
caller's record with the columns of the stored one.
-/

namespace RecordSql

/-- The outcome of storing a record, and the record as it is afterwards. -/
structure Stored where
  outcome : Except Failure Answer
  record : Value

namespace Table

/-- The record with the value under a key set. Only dictionaries have keys that are no texts. -/
def assignAt (record key v : Value) : Except Failure Value :=
  match record with
  | .dict id entries => .ok (.dict id (Dict.set entries key v))
  | _ => match key.toText? with
    | some field => record.assign field v
    | none => .error .wrongType

/-- Sets the entries of a row in a record, up to the first that it refuses. -/
def assignAll (record : Value) : Dict → Value × Option Failure
  | [] => (record, none)
  | (k, v) :: rest => match assignAt record k v with
    | .ok record' => assignAll record' rest
    | .error e => (record, some e)

/-- The record with the columns of the first record of an answer; as it is if that is null. -/
def refresh (t : Table) (record : Value) (answer : Answer) : Stored :=
  match answer.first with
  | .null => ⟨.ok answer, record⟩
  | stored => match t.rowOf stored with
    | .error e => ⟨.error e, record⟩
    | .ok row => match assignAll record row with
      | (record', none) => ⟨.ok answer, record'⟩
      | (record', some e) => ⟨.error e, record'⟩

variable {σ : Type}

/-- Runs a task that stores a record, and refreshes the record. -/
def store (t : Table) (record : Value) (task : Task σ Answer) : StateM σ Stored := do
  match ← task.run with
  | .ok answer => return t.refresh record answer
  | .error e => return ⟨.error e, record⟩

/-- The records with the given keys. -/
def find (c : Connector σ) (t : Table) (key : Value) (relations : List Relation) :
    Task σ Answer := do
  let q ← Task.ofExcept ((Query.all t).withRelations relations)
  (← Task.ofExcept (q.filterKey key)).get c

/-- Inserts a record. -/
def create (c : Connector σ) (t : Table) (record : Value) : StateM σ Stored :=
  t.store record do
    let i ← Task.ofExcept ((Insertion.into t none).values record)
    i.returningAll.run c

/-- The update that writes a row to the record that has its key. -/
def saving (t : Table) (row : Dict) : Except Failure Update := do
  let key ← t.key.mapM fun c => match row.column? c with
    | some v => .ok (Value.text c, v)
    | none => .error (.absentColumn c)
  let u ← (Update.of t none).set (.dict none row)
  u.returningAll.filterKey (.dict none (Dict.ofEntries key))

/-- Writes every column of a record, found by its key. -/
def save (c : Connector σ) (t : Table) (record : Value) : StateM σ Stored :=
  t.store record do
    let row ← Task.ofExcept (t.rowOf record)
    (← Task.ofExcept (t.saving row)).run c

end Table

end RecordSql
