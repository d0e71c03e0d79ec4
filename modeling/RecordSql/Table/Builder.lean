import RecordSql.Table.Insertion
import RecordSql.Table.Query
import RecordSql.Table.Update

/-!
# Builders

A `Builder` is a query, an insertion or an update in the making. All of them build a statement, keep it, and run. Each
offers methods by name, which take a certain number of arguments.
-/

namespace RecordSql

inductive Builder
  | query (q : Query)
  | insertion (i : Insertion)
  | update (u : Update)

namespace Builder

def table : Builder → Table
  | .query q => q.table
  | .insertion i => i.table
  | .update u => u.table

/-- The name of the kind of builder. -/
def className : Builder → String
  | .query _ => "RepositoryQuery"
  | .insertion _ => "RepositoryInsert"
  | .update _ => "RepositoryUpdate"

/-- The method that runs the builder. -/
def runName : Builder → String
  | .query _ => "get"
  | .insertion _ => "insert"
  | .update _ => "update"

/-- The methods that set a condition. -/
def conditionNames : List String := ["where", "where_value", "where_column", "where_in", "where_key"]

/-- The methods that set what is returned. -/
def returningNames : List String := ["returning", "returning_columns", "returning_all"]

/-- The methods that change the builder. -/
def changeNames : Builder → List String
  | .query _ => ["select", "select_columns", "join", "with_"] ++ conditionNames
  | .insertion _ => "values" :: returningNames
  | .update _ => "set" :: conditionNames ++ returningNames

/-- Refuses a method that the builder does not have. -/
def checkMethod (b : Builder) (method : String) : Except Failure Unit :=
  if (b.runName :: "build_sql" :: b.changeNames).contains method then .ok () else .error .absentAttribute

/-- The least and the largest number of arguments of a method. -/
def arity (b : Builder) (method : String) : Nat × Nat :=
  if ["returning_all", "build_sql", b.runName].contains method then (0, 0)
  else if ["where_value", "where_column"].contains method then (3, 3)
  else if method = "where_in" then (2, 2)
  else if method = "with_" then (1, 2)
  else (1, 1)

/-- Refuses a call of a method with a number of arguments that it does not take. -/
def checkCall (b : Builder) (method : String) (given : Nat) : Except Failure Unit :=
  let (least, most) := b.arity method
  if least ≤ given ∧ given ≤ most then .ok () else .error .wrongType

/-- The statement, built anew only if none is kept. -/
def statement : Builder → Except Failure Statement
  | .query q => q.statement
  | .insertion i => i.statement
  | .update u => u.statement

/-- The builder with its statement kept, if it has one. -/
def keep : Builder → Builder
  | .query q => .query q.keep
  | .insertion i => .insertion i.keep
  | .update u => .update u.keep

/-- Runs the statement and answers with its records. -/
def run {σ : Type} (c : Connector σ) : Builder → Task σ Answer
  | .query q => q.get c
  | .insertion i => i.run c
  | .update u => u.run c

end Builder

end RecordSql
