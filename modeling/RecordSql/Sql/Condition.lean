import RecordSql.Sql.Fragment

/-!
# Conditions

A condition is a fragment for a WHERE clause. Column and operator texts are taken as they are; only values become
parameters. Groups are always put into parentheses.
-/

namespace RecordSql

/-- A condition is a fragment. -/
abbrev Condition := Fragment

namespace Condition

/-- `column operator ?` -/
def compare (column operator : String) (value : Value) : Except Failure Condition :=
  (Param.ofValue value).map fun p => ⟨column ++ " " ++ operator ++ " ?", [p]⟩

/-- `left operator right`, without a value. -/
def compareColumns (left operator right : String) : Condition :=
  .plain (left ++ " " ++ operator ++ " " ++ right)

/-- `column IN (?,?,…)`; an empty list has no such condition. -/
def member (column : String) (values : List Value) : Except Failure Condition := do
  let params ← Param.ofValues values
  if params.isEmpty then throw (.conditionRequired "IN")
  return ⟨column ++ " IN (" ++ marks params.length ++ ")", params⟩

/-- The conditions with a keyword between them, in one pair of parentheses. -/
def group (keyword : String) (conditions : List Condition) : Except Failure Condition :=
  if conditions.isEmpty then .error (.conditionRequired keyword)
  else
    let joined := Fragment.join (" " ++ keyword ++ " ") conditions
    .ok ⟨"(" ++ joined.text ++ ")", joined.params⟩

/-- All of the conditions hold. -/
def allOf (conditions : List Condition) : Except Failure Condition := group "AND" conditions

/-- One of the conditions holds. -/
def anyOf (conditions : List Condition) : Except Failure Condition := group "OR" conditions

end Condition

end RecordSql
