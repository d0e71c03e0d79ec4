import RecordSql.Sql.Condition
import RecordSql.Table.Basic

/-!
# Matching by primary key

A key is a value, or a dictionary from key columns to values; a list of keys matches any of them. A key of several
columns has to be a dictionary of all of them.
-/

namespace RecordSql

namespace Table

/-- The value that a key gives the only key column. -/
def keyValue (column : String) : Value → Except Failure Value
  | .dict _ entries => match Dict.column? entries column with
    | some v => .ok v
    | none => .error (.absentColumn column)
  | v => .ok v

/-- `"table"."column" = ?` for a column of the table. -/
def columnIs (t : Table) (column : String) (v : Value) : Except Failure Condition :=
  Condition.compare (qualify t.name column) "=" v

/-- All key columns have the values of one key. -/
def compositeKeyIs (t : Table) (key : Value) : Except Failure Condition :=
  let parts : Option (List (String × Value)) := match key with
    | .dict _ entries => t.key.mapM fun c => (Dict.column? entries c).map (c, ·)
    | _ => none
  match parts with
  | none => .error (.tableDefinition t.name
      ("composite key values must map every key column " ++ Value.literalOfTexts t.key))
  | some parts => do
    Condition.allOf (← parts.mapM fun (c, v) => t.columnIs c v)

/-- The keys that a value stands for: the items of a list, or the value itself. -/
def keysOf : Value → List Value × Bool
  | .list vs | .tuple vs => (vs, true)
  | v => ([v], false)

/-- The condition that a record has one of the given keys. -/
def keyCondition (t : Table) (key : Value) : Except Failure Condition :=
  let (keys, many) := keysOf key
  match t.key, many with
  | [column], true => do
    Condition.member (qualify t.name column) (← keys.mapM (keyValue column))
  | [column], false => do t.columnIs column (← keyValue column key)
  | _, true => do Condition.anyOf (← keys.mapM t.compositeKeyIs)
  | _, false => t.compositeKeyIs key

end Table

end RecordSql
