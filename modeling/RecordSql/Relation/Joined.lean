import RecordSql.Relation.Basic
import RecordSql.Sql.Fragment

/-!
# Joined relations

A joined relation adds its target to the query by LEFT JOIN under an alias, and selects every target column under a
label that begins with that alias.
-/

namespace RecordSql

namespace Relation

/-- The label of a target column. -/
def columnLabel (r : Relation) (column : String) : String := r.joinedName ++ "." ++ column

/-- What the query selects for the relation. -/
def joinedItems (r : Relation) : List String :=
  r.target.columns.map fun c => qualify r.joinedName c ++ " AS " ++ quoteName (r.columnLabel c)

/-- `LEFT JOIN "table" AS "name" ON left = right` -/
def leftJoin (table name left right : String) : Fragment :=
  .plain ("LEFT JOIN " ++ quoteName table ++ " AS " ++ quoteName name ++ " ON " ++ left ++ " = "
    ++ right)

/-- The joins that bring the target into the query. -/
def joins (r : Relation) : List Fragment :=
  let source := r.source.name
  match r.route with
  | .through =>
    let between := r.joinedName ++ ".pivot"
    [leftJoin (r.pivot.table.getD "") between (qualify source r.foreignKey)
      (qualify between (r.pivot.sourceKey.getD "")),
     leftJoin r.target.name r.joinedName (qualify between (r.pivot.targetKey.getD ""))
      (qualify r.joinedName r.modelKey)]
  | .direct =>
    [leftJoin r.target.name r.joinedName (qualify source r.foreignKey) (qualify r.joinedName r.modelKey)]
  | .reverse =>
    [leftJoin r.target.name r.joinedName (qualify source r.modelKey) (qualify r.joinedName r.foreignKey)]

/-- How the joined record is read from a result row. -/
def joinedPlan (r : Relation) : JoinedPlan := ⟨r.field, r.joinedName ++ ".", r.target.plan⟩

end Relation

end RecordSql
