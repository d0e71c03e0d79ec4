import RecordSql.Connector
import RecordSql.Table.Answer
import RecordSql.Table.Basic

/-!
# Insertions

An `Insertion` writes rows into a table. Columns that a row lacks take their default. A single key column that is null
in every row is left out, so that the database makes the key.
-/

namespace RecordSql

structure Insertion where
  table : Table
  /-- The columns that may be written. -/
  columns : List Value
  /-- The columns that the statement writes. -/
  written : List Value
  clauses : InsertClauses
  built : Option Statement

namespace Insertion

/-- An insertion without rows, into the columns given or those that the table says. -/
def into (table : Table) (columns : Option (List Value)) : Insertion :=
  let columns := columns.getD (table.insertColumns.map .text)
  ⟨table, columns, columns, ⟨[], none⟩, none⟩

/-- The key column that no row gives a value, if it can be left out. -/
def generatedKey? (i : Insertion) (rows : List Dict) : Option String :=
  match i.table.key with
  | [key] =>
    let unset (row : Dict) : Bool := ((row.column? key).getD .null).isNull
    if 2 ≤ i.columns.length ∧ i.columns.any (·.eqv (.text key)) ∧ rows.all unset then some key else none
  | _ => none

/-- The cells of a row. -/
def cells (columns : List Value) (row : Dict) : Except Failure (List Value) :=
  columns.mapM fun c => do
    c.checkKey
    return (row.get? c).getD .default

/-- The columns that are written when the key column is left out. What is no column at all is left out otherwise. -/
def writtenWithout (i : Insertion) (generated : Option String) : List Value :=
  let omitted : Value := generated.elim .null .text
  i.columns.filter fun c => !c.eqv omitted

/-- Replaces the rows: a record, a dictionary, or a list of such. -/
def values (i : Insertion) (records : Value) : Except Failure Insertion := do
  let items := match records with
    | .list vs | .tuple vs => vs
    | v => [v]
  let rows ← items.mapM i.table.rowOf
  let written := i.writtenWithout (i.generatedKey? rows)
  let cells ← rows.mapM (cells written)
  return { i with written := written, clauses := { i.clauses with rows := cells }, built := none }

/-- Replaces the returning clause. -/
def returning (i : Insertion) (columns : Clause) : Insertion :=
  { i with clauses := { i.clauses with returning := some columns }, built := none }

/-- Returns columns by their names, which have to be given. -/
def returningColumns (i : Insertion) (columns : Option (List String)) : Except Failure Insertion :=
  match columns with
  | some names => .ok (i.returning (.ok (columnList names)))
  | none => .error (.columnRequired "RETURNING")

def returningAll (i : Insertion) : Insertion := i.returning (.ok (.plain "*"))

/-- The statement of the clauses as they are. -/
def compile (i : Insertion) : Except Failure Statement :=
  insertStatement i.table.name i.written i.clauses

/-- The statement, built anew only if none is kept. -/
def statement (i : Insertion) : Except Failure Statement :=
  match i.built with
  | some s => .ok s
  | none => i.compile

/-- The insertion with its statement kept, if it has one. -/
def keep (i : Insertion) : Insertion :=
  match i.statement with
  | .ok s => { i with built := some s }
  | .error _ => i

/-- Runs the insertion. There are records only if it returns columns. -/
def run {σ : Type} (c : Connector σ) (i : Insertion) : Task σ Answer := do
  let statement ← Task.ofExcept i.statement
  let rows ← c.run statement
  return ⟨← Task.ofExcept (mapRows i.table.plan [] rows), rows⟩

end Insertion

end RecordSql
