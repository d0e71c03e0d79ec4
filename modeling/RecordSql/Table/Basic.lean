import RecordSql.Result.Plan
import RecordSql.Value.Plain

/-!
# Tables

A `Table` is what the library knows of a database table: its name, key and columns, the columns that insertions write,
and how its records are read from rows and written to rows. `Table.make` refuses a declaration that contradicts itself;
`Table.ofModel` takes all from a model.
-/

namespace RecordSql

/-- How a record is written to a row. -/
abbrev Writer := Value → Except Failure Dict

namespace Writer

/-- The attributes that an object has itself; what is no object has none. -/
def attributes : Value → Except Failure Row
  | .record _ _ own _ => .ok own
  | .param kind v => .ok [("kind", kind.symbol), ("value", v)]
  | .symbol _ _ name v =>
    .ok [("_value_", v), ("_name_", .text name), ("__objclass__", .thing "EnumType"), ("_sort_order_", .integer 0)]
  | .default => .ok []
  | _ => .error .wrongType

/-- The fields of a record: of a schema those that it has, as plain data, of a field list all of them, else its
attributes. -/
def fieldsOf (v : Value) : Except Failure Row :=
  match v with
  | .record _ cls own inherited => match cls.style with
    | .schematic => Value.declaredOf cls.fields (Value.plainFields own)
    | .fieldwise => cls.fields.mapM fun f =>
      match (Row.get? own f).or (Row.get? inherited f) with
      | some x => .ok (f, x)
      | none => .error .absentAttribute
    | _ => attributes v
  | _ => attributes v

/-- Writes all attributes of a record. -/
def all : Writer := fun v => (attributes v).map Dict.ofRow

/-- Writes the fields of a record that are columns, in column order. -/
def columns (names : List String) : Writer := fun v =>
  (fieldsOf v).map fun row => Dict.ofRow (row.pick names)

end Writer

/-- A table and its records. -/
structure Table where
  name : String
  key : List String
  columns : List String
  insertColumns : List String
  read : Reader
  write : Option Writer

namespace Table

/-- What is wrong with the declaration of a table, if anything; the first fault counts. -/
def fault? (t : Table) : Option String :=
  let unknown := (t.key ++ t.insertColumns).filter fun c => !t.columns.contains c
  if t.name = "" then some "table name is required"
  else if t.columns.isEmpty then some "at least one column is required"
  else if ¬ t.columns.Nodup then some "columns must be unique"
  else if t.key.isEmpty then some "a primary key is required"
  else if !unknown.isEmpty then some ("unknown columns " ++ Value.literalOfTexts unknown)
  else if t.insertColumns.isEmpty then some "at least one insert column is required"
  else none

/-- The table itself, if its declaration is in order. -/
def check (t : Table) : Except Failure Table :=
  match t.fault? with
  | some detail => .error (.tableDefinition t.name detail)
  | none => .ok t

/-- A table; insertions write all columns unless told otherwise. -/
def make (name : String) (key columns : List String) (read : Reader) (write : Option Writer)
    (insertColumns : Option (List String)) : Except Failure Table :=
  check ⟨name, key, columns, insertColumns.getD columns, read, write⟩

/-- The table of the records of a model; its columns are the fields of the model unless told otherwise. -/
def ofModel (model : Model) (name : String) (key : List String) (columns : Option (List String))
    (insertColumns : Option (List String)) : Except Failure Table := do
  let columns ← match columns with
    | some names => pure names
    | none => model.fields
  make name key columns (.model ⟨model, []⟩) (some (.columns columns)) insertColumns

/-- The row of a record; a dictionary is a row already. -/
def rowOf (t : Table) (record : Value) : Except Failure Dict :=
  match record, t.write with
  | .dict _ entries, _ => .ok entries
  | _, none => .error (.tableDefinition t.name "to_row is required to write records")
  | v, some write => write v

/-- How records of the table are made from rows. -/
def plan (t : Table) : Plan := ⟨t.name, t.read, t.columns⟩

end Table

end RecordSql
