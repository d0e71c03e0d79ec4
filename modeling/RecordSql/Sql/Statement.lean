import RecordSql.Sql.Fragment
import RecordSql.Sql.Mark
import RecordSql.Value.Equality

/-!
# Statements

A statement is put together from the fragments of its clauses, in the order that its kind prescribes, and its marks are
numbered once over the whole text. Its parameters are those of the clauses, in clause order; that there are as many of
them as marks is checked when the statement is finished.
-/

namespace RecordSql

/-- A finished statement: text with numbered marks, and the parameters in binding order. -/
structure Statement where
  sql : String
  params : List Param

namespace Statement

/-- The bound values, in binding order. -/
def values (s : Statement) : List Value := s.params.map Param.value

/-- Numbers the marks of a statement text. The text ends with a semicolon, which belongs to the statement. -/
def finish (f : Fragment) : Except Failure Statement := do
  let (sql, count) ← numberMarks (f.text ++ ";") 1
  if count ≠ f.params.length then
    throw (.binding f.text
      (toString count ++ " placeholders for " ++ toString f.params.length ++ " parameters"))
  return ⟨sql, f.params⟩

end Statement

/-- The clauses of a SELECT that a caller may set. -/
structure SelectClauses where
  columns : Option Clause
  join : Option Clause
  filter : Option Clause

/-- The clauses of an INSERT; each row has one value per column. -/
structure InsertClauses where
  rows : List (List Value)
  returning : Option Clause

/-- The clauses of an UPDATE. -/
structure UpdateClauses where
  assignments : Dict
  filter : Option Clause
  returning : Option Clause

/-- A clause with its keyword, or nothing. -/
def clause (keyword : String) : Option Clause → Except Failure (List Fragment)
  | none => .ok []
  | some c => c.map fun f => [.plain keyword, f]

/-- `SELECT … FROM "table" [join] [more joins] [WHERE …];` -/
def selectStatement (table : String) (clauses : SelectClauses) (items : List String)
    (joins : List Fragment) : Except Failure Statement := do
  let name := quoteName table
  let columns ← clauses.columns.getD (.ok (.plain (name ++ ".*")))
  let join ← clause " " clauses.join
  let filter ← clause " WHERE " clauses.filter
  Statement.finish <| .join "" <|
    [.plain "SELECT ", columns]
      ++ (if items.isEmpty then [] else [.plain (", " ++ String.intercalate ", " items)])
      ++ [.plain (" FROM " ++ name)] ++ join ++ joins.flatMap (fun f => [.plain " ", f]) ++ filter

/-- The cells of a row, and the parameters of those that are not left to the column default. -/
def insertCells : List Value → Except Failure (List String × List Param)
  | [] => .ok ([], [])
  | .default :: rest => do
    let (cells, params) ← insertCells rest
    return ("DEFAULT" :: cells, params)
  | v :: rest => do
    let p ← Param.ofValue v
    let (cells, params) ← insertCells rest
    return ("?" :: cells, p :: params)

/-- A row of an INSERT in parentheses. -/
def insertRow (row : List Value) : Except Failure Fragment := do
  let (cells, params) ← insertCells row
  return ⟨"(" ++ String.intercalate "," cells ++ ")", params⟩

/-- The name that a value is of a column. Bytes are of the wrong type for one; all else that is no text has nothing to
quote. -/
def columnName (key : Value) : Except Failure String :=
  match key, key.toText? with
  | _, some name => .ok name
  | .bytes _ _, none => .error .wrongType
  | _, none => .error .absentAttribute

/-- `INSERT INTO "table" (columns) VALUES (…),(…) [RETURNING …];` -/
def insertStatement (table : String) (columns : List Value) (clauses : InsertClauses) :
    Except Failure Statement := do
  if clauses.rows.isEmpty then throw (.rowRequired table)
  let rows ← clauses.rows.mapM insertRow
  let names ← columns.mapM columnName
  let list := String.intercalate "," (names.map quoteName)
  Statement.finish <| .join "" <|
    [.plain ("INSERT INTO " ++ quoteName table ++ " (" ++ list ++ ") VALUES "), .join "," rows]
      ++ (← clause " RETURNING " clauses.returning)

/-- `UPDATE "table" SET "column"=?,… [WHERE …] [RETURNING …];` -/
def updateStatement (table : String) (clauses : UpdateClauses) : Except Failure Statement := do
  if clauses.assignments.isEmpty then throw (.assignmentRequired table)
  let names ← clauses.assignments.mapM fun (key, _) => columnName key
  let params ← Param.ofValues (clauses.assignments.map (·.2))
  let sets := String.intercalate "," (names.map fun name => quoteName name ++ "=?")
  Statement.finish <| .join "" <|
    [⟨"UPDATE " ++ quoteName table ++ " SET " ++ sets, params⟩]
      ++ (← clause " WHERE " clauses.filter) ++ (← clause " RETURNING " clauses.returning)

end RecordSql
