import RecordSql.Connector
import RecordSql.Relation.Basic
import RecordSql.Sql.Condition

/-!
# Relations loaded in a batch

The related records of all parents are fetched by one statement, grouped by the key that leads to them, and attached to
the parents. Everything that can fail for a row is done before the first parent is touched.
-/

namespace RecordSql

/-- Values under distinct keys, in order of first appearance. -/
abbrev Groups := List (Value × List Value)

namespace Groups

/-- The values under a key. -/
def get (g : Groups) (key : Value) : List Value :=
  ((g.find? fun (k, _) => k.eqv key).map (·.2)).getD []

/-- Adds a value under a key, as the last one. -/
def add : Groups → Value → Value → Groups
  | [], key, v => [(key, [v])]
  | (k, vs) :: rest, key, v =>
    if k.eqv key then (k, vs ++ [v]) :: rest else (k, vs) :: Groups.add rest key v

end Groups

namespace Relation

/-- The value of a row that identifies its related records; a column that the row lacks is null. -/
def parentValue (r : Relation) (row : Row) : Value := (row.get? r.parentKey).getD .null

/-- The distinct values that identify related records, in order of first appearance. Nulls lead nowhere. -/
def collectKeys (r : Relation) (rows : List Row) : Except Failure (List Value) :=
  rows.foldlM (fun seen row =>
    let key := r.parentValue row
    if key.isNull then .ok seen
    else key.checkKey.map fun _ => if seen.any (·.eqv key) then seen else seen ++ [key]) []

/-- The name of the pivot table in a batch. -/
def pivotAlias : String := "relation_pivot"

/-- The column that a batch is grouped by. -/
def batchKey (r : Relation) : String :=
  match r.route, r.reach with
  | .through, _ => qualify pivotAlias (r.pivot.sourceKey.getD "")
  | .direct, .one => qualify r.target.name r.modelKey
  | _, _ => qualify r.target.name r.foreignKey

/-- The join of a batch: of the pivot, if there is one. -/
def batchJoin (r : Relation) : Option Fragment :=
  match r.route with
  | .through => some (.plain ("INNER JOIN " ++ quoteName (r.pivot.table.getD "") ++ " AS "
      ++ quoteName pivotAlias ++ " ON " ++ qualify r.target.name r.modelKey ++ " = "
      ++ qualify pivotAlias (r.pivot.targetKey.getD "")))
  | _ => none

/-- One SELECT of the related records for all keys. -/
def batchStatement (r : Relation) (keys : List Value) : Except Failure Statement := do
  let filter ← Condition.member r.batchKey keys
  let columns := quoteName r.target.name ++ ".*, " ++ r.batchKey ++ " AS " ++ quoteName relationKey
  selectStatement r.target.name ⟨some (.ok (.plain columns)), r.batchJoin.map .ok, some (.ok filter)⟩ [] []

/-- Adds the record of a row to its group. -/
def addToGroup (r : Relation) (groups : Groups) (row : Row) : Except Failure Groups := do
  let some key := row.get? relationKey | throw (.absentColumn relationKey)
  key.checkKey
  return groups.add key (← r.target.plan.run row.base)

variable {σ : Type}

/-- The related records of rows, grouped by their key. Nothing is sent if no row has a key. -/
def fetch (c : Connector σ) (r : Relation) (rows : List Row) : Task σ Groups := do
  let keys ← Task.ofExcept (r.collectKeys rows)
  if keys.isEmpty then return []
  let statement ← Task.ofExcept (r.batchStatement keys)
  c.note ⟨.debug, "loading " ++ r.source.name ++ "." ++ r.field ++ " for "
    ++ toString keys.length ++ " keys"⟩
  let replies ← c.run statement
  Task.ofExcept (replies.foldlM r.addToGroup [])

/-- What the field of a parent is set to. -/
def attached (r : Relation) (groups : Groups) (row : Row) : Value :=
  let related := groups.get (r.parentValue row)
  match r.reach with
  | .many => .list related
  | .one => related.head?.getD .null

/-- Records after an operation on them, and its failure if it has one. -/
structure Touched where
  records : List Value
  failure : Option Failure

/-- Sets the field of every record from the row that it was made of. Records and rows have to be equally many. -/
def attach (r : Relation) (groups : Groups) : List Value → List Row → Touched
  | [], [] => ⟨[], none⟩
  | [], _ :: _ => ⟨[], some (.lengthMismatch false)⟩
  | records@(_ :: _), [] => ⟨records, some (.lengthMismatch true)⟩
  | record :: records, row :: rows =>
    match record.assign r.field (r.attached groups row) with
    | .error e => ⟨record :: records, some e⟩
    | .ok record' =>
      let rest := attach r groups records rows
      ⟨record' :: rest.records, rest.failure⟩

/-- Loads the relation for records and the rows that they were made of. -/
def load (c : Connector σ) (r : Relation) (records : List Value) (rows : List Row) :
    StateM σ Touched := do
  match ← (fetch c r rows).run with
  | .ok groups => return r.attach groups records rows
  | .error e => return ⟨records, some e⟩

end Relation

end RecordSql
