import RecordSql.Result.Reader

/-!
# Result rows

A result row holds the columns of the queried table and, under labels that begin with `relations.`, the columns of
relations joined to it. `mapRow` makes the record of the table and puts the record of every joined relation into its
field; a relation of which the row has only nulls has no record.
-/

namespace RecordSql

/-- What the labels of joined columns begin with. -/
def relationsLabel : String := "relations."

/-- The column that a batch of related rows is grouped by. -/
def relationKey : String := "__relation_key"

/-- The rest of a name that begins with a label. -/
def afterLabel? (label name : String) : Option String :=
  (label.toList.isPrefixOf? name.toList).map String.ofList

/-- The columns of the queried table itself. -/
def Row.base (row : Row) : Row :=
  row.filter fun (k, _) => (afterLabel? relationsLabel k).isNone && k != relationKey

/-- The columns under a label, without it. -/
def Row.labelled (row : Row) (label : String) : Row :=
  row.filterMap fun (k, v) => (afterLabel? label k).map (·, v)

/-- How the record of a row is made: the name of its target, its reader, and the columns that the reader sees; it sees
all if none are listed. -/
structure Plan where
  target : String
  read : Reader
  columns : List String

namespace Plan

/-- The part of a row that the reader sees. -/
def visible (p : Plan) (row : Row) : Row :=
  if p.columns.isEmpty then row else row.pick p.columns

/-- The name that a failed look-up was for. -/
def soughtName : Failure → String
  | .absentColumn name => name
  | .foreign error => match error.args with
    | v :: _ => v.display
    | [] => ""
  | e => e.text

/-- A failure of the reader. A mapping failure stays; a failed look-up is a missing field, and a failure of type or
value an ill-typed one. -/
def refusal (p : Plan) (e : Failure) : Failure :=
  if e.isIn .mapping then e
  else if e.isIn .lookup then .missingFields p.target [soughtName e]
  else if e.isIn .type || e.isIn .value then .illTyped p.target e.text
  else e

/-- The record of a row. -/
def run (p : Plan) (row : Row) : Except Failure Value :=
  (p.read.run (p.visible row)).mapError p.refusal

end Plan

/-- A relation joined to the rows: the field that its record is put into, the label of its columns, and its plan. -/
structure JoinedPlan where
  field : String
  label : String
  plan : Plan

/-- The related record in a row. -/
def JoinedPlan.run (j : JoinedPlan) (row : Row) : Except Failure Value :=
  let related := row.labelled j.label
  if related.all fun (_, v) => v.isNull then .ok .null
  else j.plan.run related

/-- The record with a field set. Dictionaries and objects have fields, frozen records included; other values have
none. The name and the value of an enumeration member cannot be set. -/
def Value.assign (v : Value) (field : String) (x : Value) : Except Failure Value :=
  match v with
  | .dict id entries => .ok (.dict id (Dict.set entries (.text field) x))
  | .record id cls own inherited => .ok (.record id cls (Row.set own field x) inherited)
  | .symbol _ _ _ _ => if field = "name" ∨ field = "value" then .error .absentAttribute else .ok v
  | .param kind _ => if field = "value" then .ok (.param kind x) else .ok v
  | .default => .ok v
  | _ => .error .absentAttribute

/-- The record of a row, with its joined relations. -/
def mapRow (root : Plan) (joined : List JoinedPlan) (row : Row) : Except Failure Value := do
  let record ← root.run row.base
  joined.foldlM (fun r j => do r.assign j.field (← j.run row)) record

/-- The records of rows; one failure, and there are none. -/
def mapRows (root : Plan) (joined : List JoinedPlan) (rows : List Row) :
    Except Failure (List Value) :=
  rows.mapM (mapRow root joined)

end RecordSql
