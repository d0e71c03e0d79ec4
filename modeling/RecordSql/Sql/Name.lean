/-!
# Quoted names

A name is written between double quotes, each double quote in it twice.
-/

namespace RecordSql

/-- The inside of a quoted name. -/
def doubleQuotes (cs : List Char) : List Char :=
  cs.flatMap fun c => if c = '\x22' then ['\x22', '\x22'] else [c]

/-- A name in double quotes. -/
def quoteName (name : String) : String :=
  String.ofList ('\x22' :: (doubleQuotes name.toList ++ ['\x22']))

/-- A column with its table: `"table"."column"`. -/
def qualify (table column : String) : String := quoteName table ++ "." ++ quoteName column

end RecordSql
