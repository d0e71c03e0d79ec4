import RecordSql.Number.Double

/-!
# Values

A `Value` is anything that a program hands to the library or gets back from it: what a column may hold, a collection
of such things, a bound parameter, or a record. Rows are lists of column and value, in column order.

Some values are things: which one it is matters, and not only what is in it. Such a value carries a number, its
`Identity`. Of these, dictionaries, records and streams can change; `Value.renew` puts what has become of them into a
value that holds them.
-/

namespace RecordSql

/-- The tag of a bound query parameter. -/
inductive ParamKind
  | text
  | integer
  | real
  | truth
  | null
  deriving DecidableEq, Repr

/-- The name of the tag. -/
def ParamKind.name : ParamKind → String
  | .text => "string"
  | .integer => "integer"
  | .real => "float"
  | .truth => "boolean"
  | .null => "null"

def ParamKind.ofName? (name : String) : Option ParamKind :=
  [text, integer, real, truth, null].find? (·.name = name)

/-- What the members of an enumeration are besides: nothing, whole numbers, or texts. -/
inductive SymbolKind
  | plain
  | integer
  | text
  deriving DecidableEq, Repr

/-- The kind of members whose base type has the given name. -/
def SymbolKind.ofName : String → SymbolKind
  | "int" => .integer
  | "str" => .text
  | _ => .plain

/-- How the class of a record is declared: by a field list, by a constructor, by a typed schema, or not at all. -/
inductive RecordStyle
  | fieldwise
  | constructed
  | schematic
  | bare
  /-- Its records give the items of a list, their only attribute. -/
  | sequence
  deriving DecidableEq, Repr

/-- The class of a record. -/
structure RecordClass where
  style : RecordStyle
  name : String
  /-- The declared fields, in order. -/
  fields : List String
  /-- Whether its records take part in equality and can be keys. -/
  frozen : Bool
  deriving DecidableEq, Repr

/-- The number of a thing that several values may hold. Values of one number are the same thing; a value without a
number is a thing of its own. -/
abbrev Identity := Option Nat

inductive Value
  | null
  | truth (b : Bool)
  | integer (n : Int)
  | real (x : Double)
  | text (s : String)
  /-- A byte string, which may be of the kind that can be changed in place. -/
  | bytes (mutable : Bool) (data : List UInt8)
  | list (items : List Value)
  | tuple (items : List Value)
  | set (items : List Value)
  /-- A sequence that can be read once. -/
  | stream (id : Identity) (items : List Value)
  | dict (id : Identity) (entries : List (Value × Value))
  /-- A member of an enumeration. -/
  | symbol (id : Identity) (kind : SymbolKind) (name : String) (value : Value)
  | param (kind : ParamKind) (value : Value)
  /-- Stands for the column default in the rows of an insertion. -/
  | default
  /-- A record with the attributes it has itself and those that it reads from its class. -/
  | record (id : Identity) (cls : RecordClass) (own : List (String × Value))
      (inherited : List (String × Value))

instance : Inhabited Value := ⟨.null⟩

/-- Named values in order: a result row, the attributes of a record. A name occurs once. -/
abbrev Row := List (String × Value)

namespace Row

/-- The value under a name. -/
def get? (row : Row) (name : String) : Option Value := row.lookup name

def has (row : Row) (name : String) : Bool := row.any (·.1 == name)

/-- Sets the value under a name: in its place if the name occurs, else at the end. -/
def set : Row → String → Value → Row
  | [], name, v => [(name, v)]
  | (k, w) :: rest, name, v =>
    if k = name then (k, v) :: rest else (k, w) :: Row.set rest name v

/-- A row from its entries; a repeated name keeps its first place and takes its last value. -/
def ofEntries (entries : List (String × Value)) : Row :=
  entries.foldl (fun row (k, v) => row.set k v) []

/-- The columns listed, in the order of the list, as far as the row has them. -/
def pick (row : Row) (columns : List String) : Row :=
  columns.foldl (fun out c => match row.get? c with
    | some v => out.set c v
    | none => out) []

end Row

/-- The tag as a member of the enumeration of tags. -/
def ParamKind.symbol (kind : ParamKind) : Value :=
  .symbol none .plain (kind.name.map Char.toUpper) (.text kind.name)

namespace Value

/-- The name of a value's type. -/
def typeName : Value → String
  | .null => "NoneType"
  | .truth _ => "bool"
  | .integer _ => "int"
  | .real _ => "float"
  | .text _ => "str"
  | .bytes false _ => "bytes"
  | .bytes true _ => "bytearray"
  | .list _ => "list"
  | .tuple _ => "tuple"
  | .set _ => "set"
  | .stream _ _ => "list_iterator"
  | .dict _ _ => "dict"
  | .symbol _ _ _ _ => "E"
  | .param _ _ => "Parameter"
  | .default => "_Default"
  | .record _ cls _ _ => cls.name

/-- Whether a value counts as true in a condition. -/
def isTruthy : Value → Bool
  | .null => false
  | .truth b => b
  | .integer n => n != 0
  | .real x => !x.isZero
  | .text s => s != ""
  | .bytes _ data => !data.isEmpty
  | .list items | .tuple items | .set items => !items.isEmpty
  | .dict _ entries => !entries.isEmpty
  | .symbol _ .plain _ _ => true
  | .symbol _ _ _ v => v.isTruthy
  | .record _ ⟨.sequence, _, _, _⟩ ((_, .list items) :: _) _ => !items.isEmpty
  | _ => true

/-- The declared fields that a record has, in their order. -/
def declared : Value → Row
  | .record _ cls own inherited =>
    cls.fields.filterMap fun f => ((Row.get? own f).or (Row.get? inherited f)).map (f, ·)
  | _ => []

/-- The attributes of a record: the declared fields that it has, then all others by name. -/
def attributes (v : Value) : Row :=
  match v with
  | .record _ cls own _ =>
    v.declared ++ (own.filter fun (k, _) => !cls.fields.contains k).mergeSort (fun a b => a.1 ≤ b.1)
  | _ => []

def isNull : Value → Bool
  | .null => true
  | _ => false

/-- Which thing a value is, if that matters to others. -/
def identity : Value → Identity
  | .stream id _ | .dict id _ | .record id _ _ _ | .symbol id _ _ _ => id
  | _ => none

/-- A thing of its own without attributes, of the class of that name. -/
def thing (name : String) : Value := .record none ⟨.bare, name, [], false⟩ [] []

/-- The value under a number of its own, if it is a thing that has none yet. -/
def identify (n : Nat) : Value → Value
  | .stream none items => .stream (some n) items
  | .dict none entries => .dict (some n) entries
  | .symbol none kind name v => .symbol (some n) kind name v
  | .record none cls own inherited => .record (some n) cls own inherited
  | .real x => .real (if x.isNan then .nanOf (n + 1) else x)
  | v => v

mutual

/-- The value with every thing in it as it is now. -/
def renew (now : Nat → Option Value) : Value → Value
  | .stream id items => (id.bind now).getD (.stream id (renewAll now items))
  | .dict id entries => (id.bind now).getD (.dict id (renewEntries now entries))
  | .record id cls own inherited =>
    (id.bind now).getD (.record id cls (renewFields now own) (renewFields now inherited))
  | .list items => .list (renewAll now items)
  | .tuple items => .tuple (renewAll now items)
  | .set items => .set (renewAll now items)
  | .param kind v => .param kind (renew now v)
  | v => v

def renewAll (now : Nat → Option Value) : List Value → List Value
  | [] => []
  | v :: vs => renew now v :: renewAll now vs

def renewEntries (now : Nat → Option Value) : List (Value × Value) → List (Value × Value)
  | [] => []
  | (k, v) :: rest => (renew now k, renew now v) :: renewEntries now rest

def renewFields (now : Nat → Option Value) : List (String × Value) → List (String × Value)
  | [] => []
  | (k, v) :: rest => (k, renew now v) :: renewFields now rest

end

end Value

end RecordSql
