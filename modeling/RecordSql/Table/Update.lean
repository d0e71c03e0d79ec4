import RecordSql.Connector
import RecordSql.Table.Answer
import RecordSql.Table.Key

/-!
# Updates

An `Update` sets columns of the records that a condition selects.
-/

namespace RecordSql

structure Update where
  table : Table
  /-- The columns that may be set; all if no list is given. -/
  columns : Option (List Value)
  clauses : UpdateClauses
  built : Option Statement

namespace Update

def of (table : Table) (columns : Option (List Value)) : Update :=
  ⟨table, columns, ⟨[], none, none⟩, none⟩

/-- The part of a row that is under the columns listed, in their order. -/
def restrict (columns : List Value) (row : Dict) : Except Failure Dict :=
  columns.foldlM (fun out c => do
    c.checkKey
    return match row.get? c with
      | some v => out.set c v
      | none => out) []

/-- Replaces what is set: by the row of a record, or by a dictionary. -/
def set (u : Update) (record : Value) : Except Failure Update := do
  let row ← u.table.rowOf record
  let row ← match u.columns with
    | none => pure row
    | some columns => restrict columns row
  return { u with clauses := { u.clauses with assignments := row }, built := none }

/-- Replaces the condition. -/
def filter (u : Update) (condition : Clause) : Update :=
  { u with clauses := { u.clauses with filter := some condition }, built := none }

/-- Updates the records with the given keys. -/
def filterKey (u : Update) (key : Value) : Except Failure Update :=
  (u.table.keyCondition key).map fun c => u.filter (.ok c)

/-- Replaces the returning clause. -/
def returning (u : Update) (columns : Clause) : Update :=
  { u with clauses := { u.clauses with returning := some columns }, built := none }

/-- Returns columns by their names, which have to be given. -/
def returningColumns (u : Update) (columns : Option (List String)) : Except Failure Update :=
  match columns with
  | some names => .ok (u.returning (.ok (columnList names)))
  | none => .error (.columnRequired "RETURNING")

def returningAll (u : Update) : Update := u.returning (.ok (.plain "*"))

/-- The statement of the clauses as they are. -/
def compile (u : Update) : Except Failure Statement := updateStatement u.table.name u.clauses

/-- The statement, built anew only if none is kept. -/
def statement (u : Update) : Except Failure Statement :=
  match u.built with
  | some s => .ok s
  | none => u.compile

/-- The update with its statement kept, if it has one. -/
def keep (u : Update) : Update :=
  match u.statement with
  | .ok s => { u with built := some s }
  | .error _ => u

/-- Runs the update. There are records only if it returns columns. -/
def run {σ : Type} (c : Connector σ) (u : Update) : Task σ Answer := do
  let statement ← Task.ofExcept u.statement
  let rows ← c.run statement
  return ⟨← Task.ofExcept (mapRows u.table.plan [] rows), rows⟩

end Update

end RecordSql
