import RecordSql.Table.Basic

/-!
# Relations between tables

A relation leads from the records of a source table to one or many records of a target table. Keys that a declaration
leaves out are the primary keys of the side that its route says, so a relation that exists is complete; a declaration
that cannot be completed is refused.
-/

namespace RecordSql

/-- How many records a relation leads to. -/
inductive Reach
  | one
  | many
  deriving DecidableEq, Repr

def Reach.name : Reach → String
  | .one => "one"
  | .many => "many"

/-- Which table holds the key that links the two. -/
inductive Route
  /-- The source for one record, the target for many. -/
  | direct
  /-- The target. -/
  | reverse
  /-- A table between the two. -/
  | through
  deriving DecidableEq, Repr

namespace Route

def name : Route → String
  | .direct => "direct"
  | .reverse => "reverse"
  | .through => "through"

/-- The route that a value names. -/
def ofValue (given : Value) : Except Failure Route :=
  match [Route.direct, .reverse, .through].find? fun route => given.toText? = some route.name with
  | some route => .ok route
  | none => .error (.unknownRoute given)

end Route

/-- The table between source and target, its column for the source and its column for the target. -/
structure Pivot where
  table : Option String
  sourceKey : Option String
  targetKey : Option String
  deriving DecidableEq, Repr

/-- A relation as it is declared. -/
structure Declaration where
  field : String
  reach : Reach
  route : Route
  source : Table
  target : Table
  foreignKey : Option String
  modelKey : Option String
  pivot : Pivot

/-- A complete relation. For one record directly, `foreignKey` is a column of the source that refers to `modelKey` of
the target; through a pivot, they are the columns of source and target that the pivot refers to; else `foreignKey` is a
column of the target that refers to `modelKey` of the source. -/
structure Relation where
  field : String
  reach : Reach
  route : Route
  source : Table
  target : Table
  foreignKey : String
  modelKey : String
  pivot : Pivot

namespace Declaration

/-- An empty name counts as none. -/
def given (name : Option String) : Option String := name.filter (· ≠ "")

def refuse {α : Type} (d : Declaration) (detail : String) : Except Failure α :=
  .error (.relationDefinition d.field detail)

/-- The only key column of a table. -/
def primaryKey (d : Declaration) (t : Table) (role : String) : Except Failure String :=
  match t.key with
  | [column] => .ok column
  | _ => d.refuse (role ++ " table '" ++ t.name
      ++ "' has a composite key; give the key column explicitly")

/-- A given key column, or the primary key of a table. -/
def keyOr (d : Declaration) (key : Option String) (t : Table) (role : String) :
    Except Failure String :=
  match given key with
  | some column => .ok column
  | none => d.primaryKey t role

def checkColumn (d : Declaration) (t : Table) (column role : String) : Except Failure Unit :=
  if t.columns.contains column then .ok ()
  else d.refuse ("column '" ++ column ++ "' is not declared on " ++ role ++ " table '" ++ t.name
    ++ "'")

/-- A key that the kind of relation asks for. -/
def demand (d : Declaration) (key : Option String) (kind : String) : Except Failure String :=
  match given key with
  | some column => .ok column
  | none => d.refuse ("foreign_key is required for " ++ kind)

/-- All parts of the pivot are given. -/
def demandPivot (d : Declaration) : Except Failure Unit :=
  [("pivot_table", d.pivot.table), ("pivot_foreign_key", d.pivot.sourceKey),
    ("pivot_model_key", d.pivot.targetKey)].forM fun (name, part) =>
      if (given part).isNone then d.refuse (name ++ " is required for THROUGH") else .ok ()

/-- The two keys of the relation. -/
def keys (d : Declaration) : Except Failure (String × String) := do
  match d.route, d.reach with
  | .through, _ =>
    d.demandPivot
    let foreignKey ← d.keyOr d.foreignKey d.source "source"
    let modelKey ← d.keyOr d.modelKey d.target "target"
    d.checkColumn d.source foreignKey "source"
    d.checkColumn d.target modelKey "target"
    return (foreignKey, modelKey)
  | .direct, .one =>
    let foreignKey ← d.demand d.foreignKey "ONE / DIRECT"
    let modelKey ← d.keyOr d.modelKey d.target "target"
    d.checkColumn d.source foreignKey "source"
    d.checkColumn d.target modelKey "target"
    return (foreignKey, modelKey)
  | .reverse, .one =>
    let foreignKey ← d.keyOr d.foreignKey d.target "target"
    let modelKey ← d.keyOr d.modelKey d.source "source"
    d.checkColumn d.target foreignKey "target"
    d.checkColumn d.source modelKey "source"
    return (foreignKey, modelKey)
  | _, .many =>
    let foreignKey ← d.demand d.foreignKey "MANY"
    let modelKey ← d.keyOr d.modelKey d.source "source"
    d.checkColumn d.target foreignKey "target"
    d.checkColumn d.source modelKey "source"
    return (foreignKey, modelKey)

/-- The relation that is declared. -/
def complete (d : Declaration) : Except Failure Relation := do
  if d.field = "" then d.refuse "field name is required"
  let (foreignKey, modelKey) ← d.keys
  return ⟨d.field, d.reach, d.route, d.source, d.target, foreignKey, modelKey, d.pivot⟩

end Declaration

/-- Declares a relation. A table between the two implies the route through it. -/
def Relation.declare (d : Declaration) : Except Failure Relation :=
  (if d.pivot.table.isSome then { d with route := .through } else d).complete

namespace Relation

/-- The name of the target table when it is joined to the source. -/
def joinedName (r : Relation) : String := relationsLabel ++ r.field

/-- Whether the source holds the key that identifies the related records under `foreignKey`. -/
def sourceHoldsForeignKey (r : Relation) : Bool :=
  r.route = .through || (r.reach = .one && r.route = .direct)

/-- The column of the source whose values identify the related records. -/
def parentKey (r : Relation) : String :=
  if r.sourceHoldsForeignKey then r.foreignKey else r.modelKey

/-- Relations to one record are joined to the query unless they are to be loaded later. -/
def canJoin (r : Relation) (later : Bool) : Bool := r.reach = .one && !later

end Relation

end RecordSql
