import RecordSql.Model.Schema
import RecordSql.Text.Word

/-!
# Models

A model is a class of records. It is declared by a list of fields with their defaults, by the parameters of a
constructor, or by a typed schema. `Model.build` makes a record from named values, `Model.fields` lists the fields that
a record is made from. What a constructor takes is a matter of its own (`Model.takes`, `Model.needs`): that of a field
list can have arguments that are no fields.
-/

namespace RecordSql

/-- What a check asks of a field of a new record. -/
inductive Requirement
  /-- An integer proper. -/
  | integer
  | text
  /-- An integer or a real number. -/
  | number
  /-- A number that is not negative. -/
  | nonneg
  /-- Anything but null. -/
  | present
  deriving DecidableEq, Repr

def Requirement.name : Requirement → String
  | .integer => "int"
  | .text => "str"
  | .number => "number"
  | .nonneg => "nonneg"
  | .present => "nonnull"

def Requirement.ofName? (name : String) : Option Requirement :=
  [integer, text, number, nonneg, present].find? (·.name = name)

def Requirement.holds : Requirement → Value → Bool
  | .integer, .integer _ => true
  | .text, .text _ => true
  | .number, .integer _ | .number, .real _ => true
  | .nonneg, .integer n => 0 ≤ n
  | .nonneg, .real x => x.isNonneg
  | .present, v => !v.isNull
  | _, _ => false

/-- A condition on a field of a new record, and the failure of a record that does not meet it. -/
structure Check where
  field : String
  must : Requirement
  failure : Failure

/-- The value of a field for which none is given. -/
inductive Fallback
  | none
  /-- One value that all records share. -/
  | shared (v : Value)
  /-- A value made anew for every record: what the factory of the field gives at the moment. A factory that gives another
  value at another moment makes another model of the class. -/
  | fresh (v : Value)

/-- What a constructor makes of a field. -/
inductive FieldRole
  /-- An attribute that the constructor takes an argument for. -/
  | argument
  /-- An attribute that is no argument. -/
  | preset
  /-- An argument that records do not keep. It is no field of the class, though it is declared like one. -/
  | transient
  deriving DecidableEq, Repr

/-- An attribute, by whether it is an argument. -/
instance : Coe Bool FieldRole := ⟨fun isArgument => if isArgument then .argument else .preset⟩

/-- A field of a model declared by its fields. -/
structure Field where
  name : String
  fallback : Fallback
  role : FieldRole

/-- Whether there is no value for the field unless one is given. -/
def Field.isRequired (f : Field) : Bool :=
  match f.fallback with
  | .none => true
  | _ => false

/-- How a constructor takes a parameter. -/
inductive ParameterMode
  | ordinary
  | positionOnly
  | nameOnly
  /-- All further arguments without a name. -/
  | otherPositions
  /-- All further named arguments. -/
  | otherNames
  deriving DecidableEq, Repr

def ParameterMode.name : ParameterMode → String
  | .ordinary => "normal"
  | .positionOnly => "positional_only"
  | .nameOnly => "keyword_only"
  | .otherPositions => "var_positional"
  | .otherNames => "var_keyword"

def ParameterMode.ofName? (name : String) : Option ParameterMode :=
  [ordinary, positionOnly, nameOnly, otherPositions, otherNames].find? (·.name = name)

/-- A parameter of a constructor. -/
structure Parameter where
  name : String
  fallback : Option Value
  mode : ParameterMode

/-- Where a parameter stands among those of the other modes. -/
def ParameterMode.place : ParameterMode → Nat
  | .positionOnly => 0
  | .ordinary => 1
  | .otherPositions => 2
  | .nameOnly => 3
  | .otherNames => 4

/-- Whether there can be several parameters of the mode. -/
def ParameterMode.isRepeatable (m : ParameterMode) : Bool := m ≠ .otherPositions && m ≠ .otherNames

/-- Whether parameters of these modes can follow one another. -/
def ParameterMode.areOrdered : List ParameterMode → Bool
  | m :: n :: rest =>
    (decide (m.place < n.place) || (m = n && m.isRepeatable)) && areOrdered (n :: rest)
  | _ => true

/-- Parameters as they are taken where those behind the one for all further positions, or behind one that is given by
name only, can only be given by name. -/
def Parameter.closePositions : List Parameter → List Parameter
  | [] => []
  | p :: rest =>
    if p.mode = .otherPositions ∨ p.mode = .nameOnly then
      p :: rest.map fun q => if q.mode = .ordinary then { q with mode := .nameOnly } else q
    else p :: closePositions rest

/-- Parameters in the order of their declaration, as they are taken: those behind the end of the positions by name only,
those in front of one that is given by position only by position as well. -/
def Parameter.arrange (parameters : List Parameter) : List Parameter :=
  let closed := closePositions parameters
  let rest := closed.dropWhile (·.mode = .ordinary)
  if rest.head?.any (·.mode = .positionOnly) then
    (closed.takeWhile (·.mode = .ordinary)).map ({ · with mode := .positionOnly }) ++ rest
  else closed

/-- Words that name no parameter. -/
def reservedWords : List String :=
  ["False", "None", "True", "and", "as", "assert", "async", "await", "break", "class", "continue", "def", "del", "elif",
    "else", "except", "finally", "for", "from", "global", "if", "import", "in", "is", "lambda", "nonlocal", "not", "or",
    "pass", "raise", "return", "try", "while", "with", "yield"]

/-- Whether a text can name a parameter. -/
def isParameterName (name : String) : Bool := Text.isWord name && !reservedWords.contains name

/-- A class of records. A model that is declared by its fields has the constructor that follows from them: it takes its
arguments in their order, assigns the attributes and runs the checks. Constructors of another make are left out, such as
those that compute attributes from others; the call that is made of a row is the same for any (`Mapper.mapThrough`). So
is whether an argument of a field list can also be given without its name: calls by name differ in nothing but the text
of the failure for what they lack. -/
inductive Model
  /-- Declared by its fields; the records of a frozen model can be keys. -/
  | fieldwise (name : String) (frozen : Bool) (fields : List Field) (checks : List Check)
  /-- Declared by the parameters of its constructor. -/
  | constructed (name : String) (parameters : List Parameter) (checks : List Check)
  | schematic (schema : Schema)

namespace Model

def name : Model → String
  | .fieldwise name _ _ _ => name
  | .constructed name _ _ => name
  | .schematic schema => schema.name

/-- The class of the model's records. -/
def recordClass : Model → RecordClass
  | .fieldwise name frozen fields _ => ⟨.fieldwise, name, (fields.filter (·.role ≠ .transient)).map Field.name, frozen⟩
  | .constructed name parameters _ =>
    ⟨.constructed, name, parameters.map Parameter.name, false⟩
  | .schematic schema => schemaClass schema.name schema.fields

/-- The parameters that can be given by name. -/
def named (parameters : List Parameter) : List Parameter :=
  parameters.filter fun p => p.mode = .ordinary ∨ p.mode = .nameOnly

/-- Whether every name is accepted. -/
def isOpen (parameters : List Parameter) : Bool :=
  parameters.any fun p => p.mode = .otherNames

/-- Whether a required one stands behind one that can be absent. -/
def isBroken (canBeAbsent : List Bool) : Bool := (canBeAbsent.dropWhile (!·)).any (!·)

/-- A failure if the model is not declared properly: two names alike or a name that is no word, a default that records
could change, a factory for what they do not keep, parameters out of order, or a required argument behind one with a
default. -/
def check (m : Model) : Except Failure Unit :=
  match m with
  | .fieldwise _ _ fields _ => do
    let names := fields.map Field.name
    if !(names.all isParameterName && decide names.Nodup) then throw .wrongType
    fields.forM fun f => match f.role, f.fallback with
      | .transient, .fresh _ => throw .wrongType
      | .transient, _ => pure ()
      | _, .shared v => if v.isMutable then throw (.mutableDefault v.typeName f.name) else pure ()
      | _, _ => pure ()
    if isBroken ((fields.filter (·.role ≠ .preset)).map fun f => !f.isRequired) then throw .wrongType
  | .constructed _ parameters _ =>
    let names := parameters.map Parameter.name
    let positions := parameters.filter fun p => p.mode = .ordinary ∨ p.mode = .positionOnly
    if names.all isParameterName && decide ("self" :: names).Nodup
        && ParameterMode.areOrdered (parameters.map Parameter.mode)
        && !isBroken (positions.map fun p => p.fallback.isSome) then .ok ()
    else .error .brokenSignature
  | .schematic _ => .ok ()

/-- The names that a row can have values for: of a field list those of its fields, whatever else the constructor takes.
`none` if it accepts all. -/
def accepted : Model → Option (List String)
  | .fieldwise _ _ fields _ => some ((fields.filter (·.role = .argument)).map Field.name)
  | .constructed _ parameters _ =>
    if isOpen parameters then none else some ((named parameters).map Parameter.name)
  | .schematic schema => some schema.fields.names

/-- The names among them that the constructor cannot do without. -/
def required : Model → List String
  | .fieldwise _ _ fields _ =>
    (fields.filter fun f => f.role = .argument && f.isRequired).map Field.name
  | .constructed _ parameters _ =>
    ((named parameters).filter fun p => p.fallback.isNone).map Parameter.name
  | .schematic _ => []

/-- The names that a call of the constructor can have; `none` if it can have all. -/
def takes : Model → Option (List String)
  | .fieldwise _ _ fields _ => some ((fields.filter (·.role ≠ .preset)).map Field.name)
  | m => m.accepted

/-- The names that a call of the constructor cannot do without. -/
def needs : Model → List String
  | .fieldwise _ _ fields _ =>
    (fields.filter fun f => f.role ≠ .preset && f.isRequired).map Field.name
  | m => m.required

/-- The fields that a record is made from, in order of declaration. -/
def fields (m : Model) : Except Failure (List String) :=
  match m.accepted with
  | some names => .ok names
  | none => .error (.openConstructor m.name)

/-- Names in quotes, joined as in a sentence. -/
def enumerate : List String → String
  | [] => ""
  | [a] => "'" ++ a ++ "'"
  | [a, b] => "'" ++ a ++ "' and '" ++ b ++ "'"
  | names =>
    String.intercalate ", " (names.dropLast.map fun a => "'" ++ a ++ "'")
      ++ ", and '" ++ names.getLastD "" ++ "'"

/-- The failure of a constructor call that lacks arguments. -/
def lacking (target kind : String) (names : List String) : Failure :=
  .badCall (target ++ ".__init__() missing " ++ toString names.length ++ " required " ++ kind
    ++ (if names.length = 1 then " argument: " else " arguments: ") ++ enumerate names)

/-- The failure of a constructor call with a name that it does not take. -/
def unexpected (target name : String) : Failure :=
  .badCall (target ++ ".__init__() got an unexpected keyword argument '" ++ name ++ "'")

/-- The attributes of a new record of a field list, in order. A field that is no argument and shares its default is
not among them. -/
def assignFields : List Field → Row → Row
  | [], _ => []
  | f :: rest, given =>
    let tail := assignFields rest given
    match f.role, given.get? f.name, f.fallback with
    | .transient, _, _ => tail
    | .argument, some v, _ => (f.name, v) :: tail
    | .argument, none, .shared v => (f.name, v) :: tail
    | _, _, .fresh v => (f.name, v) :: tail
    | _, _, _ => tail

/-- The attributes that records of a field list read from their class. -/
def classAttributes (fields : List Field) : Row :=
  fields.filterMap fun f => match f.role, f.fallback with
    | .argument, _ => none
    | _, .shared v => some (f.name, v)
    | _, _ => none

/-- The attribute that a parameter gives a new record. -/
def assignParameter (p : Parameter) (given : Row) : Row :=
  match p.mode with
  | .otherPositions => [(p.name, .tuple [])]
  | .otherNames => []
  | .positionOnly => (p.fallback.map (p.name, ·)).toList
  | _ => (((given.get? p.name).or p.fallback).map (p.name, ·)).toList

/-- The attributes of a new record of a constructor: the parameters in order, then all further names. -/
def assignParameters (parameters : List Parameter) (given : Row) : Row :=
  let taken := (named parameters).map Parameter.name
  let others := if isOpen parameters then given.filter fun (k, _) => !taken.contains k else []
  others.foldl (fun row (k, v) => row.set k v)
    (parameters.flatMap fun p => assignParameter p given)

/-- The failure of a constructor call that names an argument which every call has. -/
def repeated (target name : String) : Failure :=
  .badCall (target ++ ".__init__() got multiple values for argument '" ++ name ++ "'")

/-- Whether the constructor that takes any name would take its record for a named argument: `self` is free only behind
parameters that cannot be named. -/
def namesSelf (parameters : List Parameter) (given : Row) : Bool :=
  given.has "self" && isOpen parameters && !parameters.any fun p => p.mode = .positionOnly

/-- Refuses a call with a name that the constructor does not take, or without a required argument. -/
def checkCall (m : Model) (given : Row) : Except Failure Unit := do
  match m.takes with
  | some names => match given.find? fun (k, _) => !names.contains k with
    | some (k, _) => throw (unexpected m.name k)
    | none => pure ()
  | none => pure ()
  let absent (ps : List Parameter) : List String :=
    (ps.filter fun p => p.fallback.isNone && !(p.mode ≠ .positionOnly && given.has p.name)).map
      Parameter.name
  match m with
  | .constructed _ parameters _ =>
    if namesSelf parameters given then throw (repeated m.name "self")
    let positions := absent (parameters.filter fun p => p.mode = .ordinary ∨ p.mode = .positionOnly)
    if !positions.isEmpty then throw (lacking m.name "positional" positions)
    let names := absent (parameters.filter fun p => p.mode = .nameOnly)
    if !names.isEmpty then throw (lacking m.name "keyword-only" names)
  | _ =>
    let names := m.needs.filter fun name => !given.has name
    if !names.isEmpty then throw (lacking m.name "positional" names)

/-- Runs the checks of a new record, in order. -/
def runChecks (checks : List Check) (own inherited : Row) : Except Failure Unit :=
  checks.forM fun c => match (own.get? c.field).or (inherited.get? c.field) with
    | none => throw .absentAttribute
    | some v => if c.must.holds v then pure () else throw c.failure

/-- Makes a record from named values. -/
def build (m : Model) (given : Row) : Except Failure Value :=
  match m with
  | .fieldwise _ _ fields checks => do
    m.checkCall given
    let own := assignFields fields given
    let inherited := classAttributes fields
    runChecks checks own inherited
    return .record none m.recordClass own inherited
  | .constructed _ parameters checks => do
    m.checkCall given
    let own := assignParameters parameters given
    runChecks checks own []
    return .record none m.recordClass own []
  | .schematic schema => (schema.check (Dict.ofRow (schema.fields.inTurn given))).mapError .invalidData

/-- The streams that making a record reads to their ends. -/
def reads (m : Model) (given : Row) : List Nat :=
  match m with
  | .schematic schema => schema.fields.reads (Dict.ofRow given)
  | _ => []

end Model

end RecordSql
