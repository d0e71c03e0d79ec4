import RecordSql.Value.Literal

/-!
# Failures

A `Failure` is the cause of an operation not giving a result: a statement that cannot be built, a row that does not fit
its model, a refused transaction step, an error of the driver, or an error that code outside the library raised. The
wording is in `Failure.message`, and what a caller may catch them by is in `Failure.family`.
-/

namespace RecordSql

/-- What a failure can be caught as. The first eight are the library's own. -/
inductive Family
  | library
  | construction
  | execution
  | mapping
  | transaction
  | adapter
  | connection
  | pool
  /-- A key that a collection lacks; it is also a `lookup`. -/
  | key
  | lookup
  | value
  | type
  | driver
  /-- What ends the program: work that it interrupts is not undone. -/
  | interrupt
  | other
  deriving DecidableEq, Repr

/-- The wider family, inside the library and among lookups. -/
def Family.parent? : Family → Option Family
  | .construction | .execution | .mapping | .transaction | .adapter => some .library
  | .connection | .pool => some .adapter
  | .key => some .lookup
  | _ => none

/-- What is wrong with one field of data that was checked against a schema. -/
inductive Complaint
  | missing
  | notInteger
  | unreadableInteger
  | fractionalInteger
  /-- A number that has too many digits. -/
  | oversizedInteger
  | notFinite
  | notReal
  | unreadableReal
  | notTruth
  | unreadableTruth
  | notText
  /-- Bytes that encode no text. -/
  | undecodableText
  | notList
  | notDict
  | notRecord
  deriving DecidableEq, Repr

/-- The name of a complaint. -/
def Complaint.name : Complaint → String
  | .missing => "missing"
  | .notInteger => "int_type"
  | .unreadableInteger => "int_parsing"
  | .fractionalInteger => "int_from_float"
  | .oversizedInteger => "int_parsing_size"
  | .notFinite => "finite_number"
  | .notReal => "float_type"
  | .unreadableReal => "float_parsing"
  | .notTruth => "bool_type"
  | .unreadableTruth => "bool_parsing"
  | .notText => "string_type"
  | .undecodableText => "string_unicode"
  | .notList => "list_type"
  | .notDict => "dict_type"
  | .notRecord => "model_type"

/-- A complaint and where in the data it arose. -/
structure Problem where
  path : List String
  complaint : Complaint
  deriving DecidableEq, Repr

/-- The place, with its steps joined by dots. -/
def Problem.place (p : Problem) : String := String.intercalate "." p.path

/-- An error raised outside the library, with its arguments. It may have a text of its own, and attributes. -/
structure ForeignError where
  name : String
  family : Family
  args : List Value
  text : Option String
  attributes : Row

/-- An error of a database driver: its kind, its text, the code and primary message that it may carry, and whether it
is about the connection or the operation of the database. -/
structure DriverError where
  name : String
  text : String
  code : Option String
  primary : Option String
  operational : Bool
  deriving DecidableEq, Repr

inductive Failure
  /-- An AND, OR or IN has nothing to combine. -/
  | conditionRequired (operation : String)
  /-- An INSERT has no row. -/
  | rowRequired (table : String)
  /-- A column list is empty. -/
  | columnRequired (clause : String)
  /-- An UPDATE has nothing to set. -/
  | assignmentRequired (table : String)
  /-- A value cannot be bound. -/
  | unsupportedValue (typeName : String) (detail : Option String)
  | tableDefinition (table detail : String)
  | relationDefinition (field detail : String)
  /-- The database refused a statement. -/
  | queryFailed (code message : String)
  /-- Marks and parameters of a statement disagree. -/
  | binding (statement detail : String)
  /-- Required fields have no column. -/
  | missingFields (target : String) (fields : List String)
  /-- A column does not fit its field. -/
  | illTyped (target detail : String)
  /-- Columns do not fit the schema of the target, at these places. -/
  | rejectedFields (target : String) (places : List String)
  | transactionState (state action : String)
  | unsupportedDriver (driver : String)
  | connectionFailed (message : String)
  | poolExhausted
  /-- Data do not fit a schema. -/
  | invalidData (problems : List Problem)
  | unknownStyle (style : String)
  /-- A text, shown as given, spells no whole number in the base. -/
  | unreadableWhole (base : Nat) (given : String)
  /-- A base that no number is written in. -/
  | unknownBase
  /-- A double that is near no whole number. -/
  | noWhole (x : Double)
  /-- A text spells a whole number of more digits than are read. -/
  | oversizedWhole (digits : Nat)
  /-- A number is too large to count with. -/
  | outOfRange
  /-- A text is too long to be made. -/
  | outOfMemory
  /-- No member of an enumeration can have the name. -/
  | reservedName (name : String)
  /-- A field has a value as its default that its records could change. -/
  | mutableDefault (typeName field : String)
  | unknownRoute (given : Value)
  /-- Two sequences that belong together differ in length. -/
  | lengthMismatch (secondShorter : Bool)
  /-- A constructor has a required parameter behind one with a default. -/
  | brokenSignature
  /-- A constructor that takes any keyword names no fields. -/
  | openConstructor (target : String)
  | absentColumn (name : String)
  /-- A value is not of a type that the operation is defined on. -/
  | wrongType
  /-- A constructor call lacks an argument. -/
  | badCall (detail : String)
  | absentAttribute
  | driver (error : DriverError)
  | foreign (error : ForeignError)

namespace Failure

/-- The arguments of an error as its text. -/
def textOfArgs (family : Family) : List Value → String
  | [] => ""
  | [v] => if family = .key then v.literal else v.display
  | vs => (Value.tuple vs).literal

/-- The text of a failure, where the library or the raising code gives one. -/
def message : Failure → Option String
  | .conditionRequired operation => some (operation ++ " requires at least one condition")
  | .rowRequired table => some ("INSERT into '" ++ table ++ "' requires at least one row of values")
  | .columnRequired clause => some (clause ++ " requires at least one column")
  | .assignmentRequired table => some ("UPDATE of '" ++ table ++ "' requires values to set")
  | .unsupportedValue typeName detail =>
    let start := "Unsupported query parameter type: " ++ typeName
    some (match detail with
      | none | some "" => start
      | some d => start ++ " (" ++ d ++ ")")
  | .tableDefinition table detail =>
    some ("Invalid repository configuration for '" ++ table ++ "': " ++ detail)
  | .relationDefinition field detail => some ("Invalid relationship '" ++ field ++ "': " ++ detail)
  | .queryFailed code text => some ("Query failed [" ++ code ++ "]: " ++ text)
  | .binding statement detail =>
    some ("Parameter binding error for '" ++ statement ++ "': " ++ detail)
  | .missingFields target fields =>
    some ("Cannot map to " ++ target ++ ": missing fields " ++ Value.literalOfTexts fields)
  | .illTyped target detail => some ("Cannot map to " ++ target ++ ": " ++ detail)
  | .rejectedFields _ _ => none
  | .transactionState state action =>
    some ("Cannot " ++ action ++ " transaction in state '" ++ state ++ "'")
  | .unsupportedDriver name => some ("Unsupported database driver: " ++ name)
  | .connectionFailed text => some text
  | .poolExhausted => some "No connections available in pool"
  | .invalidData _ => none
  | .unknownStyle style => some ("Unknown paramstyle: " ++ style)
  | .unreadableWhole base given =>
    some ("invalid literal for int() with base " ++ toString base ++ ": "
      ++ String.ofList (given.toList.take 200))
  | .unknownBase => some "int() base must be >= 2 and <= 36, or 0"
  | .noWhole x => if x.isNan then some "cannot convert float NaN to integer" else none
  | .oversizedWhole digits =>
    some ("Exceeds the limit (4300 digits) for integer string conversion: value has " ++ toString digits
      ++ " digits; use sys.set_int_max_str_digits() to increase the limit")
  | .reservedName name =>
    some (if name = "" ∨ name = "mro" then "invalid enum member name(s) " ++ Literal.text name
      else "_sunder_ names, such as " ++ Literal.text name ++ ", are reserved for future Enum use")
  | .mutableDefault typeName field =>
    some ("mutable default <class '" ++ typeName ++ "'> for field " ++ field
      ++ " is not allowed: use default_factory")
  | .unknownRoute given => some (given.literal ++ " is not a valid RelationStrategy")
  | .lengthMismatch secondShorter =>
    some ("zip() argument 2 is " ++ (if secondShorter then "shorter" else "longer")
      ++ " than argument 1")
  | .openConstructor target =>
    some ("Cannot infer fields of " ++ target ++ " from a **kwargs constructor")
  | .absentColumn name => some (Literal.text name)
  | .wrongType | .absentAttribute | .brokenSignature | .outOfRange | .outOfMemory => none
  | .badCall detail => some detail
  | .driver error => some error.text
  | .foreign error => some (error.text.getD (textOfArgs error.family error.args))

/-- What a failure can be asked for, by name. -/
def attributes : Failure → Row
  | .conditionRequired operation => [("operation", .text operation)]
  | .rowRequired table | .assignmentRequired table | .tableDefinition table _ =>
    [("table", .text table)]
  | .columnRequired clause => [("clause", .text clause)]
  | .unsupportedValue typeName _ => [("value_type", .text typeName)]
  | .relationDefinition field _ => [("field", .text field)]
  | .queryFailed code text => [("code", .text code), ("message", .text text)]
  | .binding statement _ => [("statement", .text statement)]
  | .missingFields target fields =>
    [("target_class", .text target), ("missing_fields", .list (fields.map .text))]
  | .illTyped target _ | .rejectedFields target _ => [("target_class", .text target)]
  | .transactionState state action =>
    [("current_state", .text state), ("attempted_action", .text action)]
  | .foreign error => error.attributes
  | _ => []

/-- The narrowest family of a failure. -/
def family : Failure → Family
  | .conditionRequired _ | .rowRequired _ | .columnRequired _ | .assignmentRequired _
  | .unsupportedValue _ _ | .tableDefinition _ _ | .relationDefinition _ _ => .construction
  | .queryFailed _ _ | .binding _ _ => .execution
  | .missingFields _ _ | .illTyped _ _ | .rejectedFields _ _ => .mapping
  | .transactionState _ _ => .transaction
  | .unsupportedDriver _ => .adapter
  | .connectionFailed _ => .connection
  | .poolExhausted => .pool
  | .invalidData _ | .unknownStyle _ | .unknownRoute _ | .lengthMismatch _ | .unreadableWhole _ _ | .unknownBase
  | .oversizedWhole _ | .reservedName _ | .mutableDefault _ _ => .value
  | .noWhole x => if x.isNan then .value else .other
  | .openConstructor _ | .wrongType | .badCall _ => .type
  | .absentColumn _ => .key
  | .absentAttribute | .brokenSignature | .outOfRange | .outOfMemory => .other
  | .driver _ => .driver
  | .foreign error => error.family

/-- Whether a failure can be caught as one of the family: it is of the family or of one inside it. -/
def isIn (e : Failure) (f : Family) : Bool :=
  e.family = f || e.family.parent? = some f || (e.family.parent?.bind Family.parent?) = some f

/-- The text of a failure, empty where it has none. -/
def text (e : Failure) : String := e.message.getD ""

end Failure

end RecordSql
