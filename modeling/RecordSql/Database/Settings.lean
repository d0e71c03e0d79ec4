import RecordSql.Model.Schema
import RecordSql.Value.Plain

/-!
# Connection settings

`Settings` say which database to open, how, and how many connections to keep. They are read from a row by a typed
schema, so that a text that spells a number will do for one, and everything that is wrong is reported at once.
-/

namespace RecordSql

structure Settings where
  driver : String
  host : Option String
  port : Option Value
  user : Option String
  password : Option String
  database : String
  /-- How many connections a pool has. -/
  poolSize : Value
  poolTimeout : Value
  poolRecycle : Int
  /-- Whether statements are logged at the higher level. -/
  echo : Bool
  /-- Options that are handed to the driver as they are. -/
  extra : Row

namespace Settings

/-- The fields that settings are read from, with the values of those that may be absent. -/
def fields : FieldList :=
  .cons "driver" "driver" .text none <|
  .cons "host" "host" (.optional .text) (some .null) <|
  .cons "port" "port" (.optional .integer) (some .null) <|
  .cons "user" "user" (.optional .text) (some .null) <|
  .cons "password" "password" (.optional .text) (some .null) <|
  .cons "database" "database" .text none <|
  .cons "pool_size" "pool_size" .integer (some (.integer 5)) <|
  .cons "pool_timeout" "pool_timeout" .integer (some (.integer 30)) <|
  .cons "pool_recycle" "pool_recycle" .integer (some (.integer 1800)) <|
  .cons "echo" "echo" .truth (some (.truth false)) <|
  .cons "extra" "extra" .table (some (.dict none [])) .nil

/-- The entries of a dictionary that have a text as key. -/
def entriesOf : Value → Row
  | .dict _ entries => entries.filterMap fun (k, v) => k.toText?.map (·, v)
  | _ => []

/-- Settings from a row that fits `fields`. -/
def ofFitted (row : Row) : Settings :=
  let text? (name : String) : Option String := (row.get? name).bind Value.toText?
  let whole? (name : String) : Option Int := (row.get? name).bind Value.toInt?
  { driver := (text? "driver").getD ""
    host := text? "host"
    port := (row.get? "port").filter fun v => !v.isNull
    user := text? "user"
    password := text? "password"
    database := (text? "database").getD ""
    poolSize := (row.get? "pool_size").getD .null
    poolTimeout := (row.get? "pool_timeout").getD .null
    poolRecycle := (whole? "pool_recycle").getD 0
    echo := ((row.get? "echo").map Value.isTruthy).getD false
    extra := ((row.get? "extra").map entriesOf).getD [] }

/-- The values of all fields, by name. What no field has as its name is left out. -/
def fit (row : Row) : Except Failure Row := (fields.check (Dict.ofRow row)).mapError .invalidData

/-- Reads settings. -/
def ofRow (row : Row) : Except Failure Settings := (fit row).map ofFitted

/-- How many connections a pool has: none if the number is negative. -/
def connections (s : Settings) : Except Failure Nat :=
  match s.poolSize.toInt? with
  | some n => .ok n.toNat
  | none => .error .wrongType

/-- The values of all fields as plain data, in the order of the fields. -/
def plain (row : Row) : Except Failure Row := do
  (← fit row).mapM fun (k, v) => do return (k, ← v.plain)

end Settings

end RecordSql
