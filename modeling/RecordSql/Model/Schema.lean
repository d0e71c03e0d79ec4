import RecordSql.Failure
import RecordSql.Number.Whole
import RecordSql.Value.Items

/-!
# Typed schemas

A schema lists typed fields. `Schema.check` fits data to it: texts and bytes that spell a number become one, whole
numbers and truth values pass into each other, and everything that does not fit is reported, all fields at once, each
problem with its place in the data. Dictionaries become records; a record that exists already is not of the schema.
-/

namespace RecordSql

mutual

/-- What a field of a schema may hold. -/
inductive FieldType
  | any
  | integer
  | real
  | truth
  | text
  /-- A dictionary whose keys are texts. -/
  | table
  | optional (inner : FieldType)
  | list (inner : FieldType)
  | nested (name : String) (fields : FieldList)

/-- Typed fields in order: name, the label under which the data has it, type, and the value it takes when absent. -/
inductive FieldList
  | nil
  | cons (name label : String) (type : FieldType) (fallback : Option Value) (rest : FieldList)

end

/-- The type that a name means; only types of single values have names. -/
def FieldType.ofName? : String → Option FieldType
  | "any" => some .any
  | "int" => some .integer
  | "float" => some .real
  | "bool" => some .truth
  | "str" => some .text
  | _ => none

/-- A named list of typed fields. -/
structure Schema where
  name : String
  fields : FieldList

namespace FieldList

def names : FieldList → List String
  | .nil => []
  | .cons name _ _ _ rest => name :: rest.names

end FieldList

/-- The class of the records of a schema. -/
def schemaClass (name : String) (fields : FieldList) : RecordClass :=
  ⟨.schematic, name, fields.names, false⟩

namespace Coerce

/-- The outcome of fitting a value: all that is wrong with it, or the value that fits. -/
abbrev Fitted := Except (List Problem) Value

def complain (c : Complaint) : Fitted := .error [⟨[], c⟩]

/-- Reads a number, either with blanks around it or with single underscores inside. -/
def readReal? (text : String) : Option Double :=
  let cs := text.toList
  (Double.ofText? (String.ofList (Text.trim cs))).or
    ((Decimal.dropUnderscores? cs).bind fun ds => Double.ofText? (String.ofList ds))

/-- The texts that mean a truth value, in lower case. -/
def readTruth? (text : String) : Option Bool :=
  let word := text.map Char.toLower
  if ["0", "off", "f", "false", "n", "no"].contains word then some false
  else if ["1", "on", "t", "true", "y", "yes"].contains word then some true
  else none

/-- Fits the text that bytes encode. -/
def decoded (fit : String → Fitted) (otherwise : Complaint) (data : List UInt8) : Fitted :=
  match String.fromUTF8? ⟨data.toArray⟩ with
  | some s => fit s
  | none => complain otherwise

def integerOfText (s : String) : Fitted :=
  match Whole.read s with
  | .ok n => .ok (.integer n)
  | .error .unreadable => complain .unreadableInteger
  | .error .oversized => complain .oversizedInteger

/-- A member of an enumeration without a base passes as the value that it has, whatever that is. -/
def integer : Value → Fitted
  | .truth b => .ok (.integer (if b then 1 else 0))
  | .integer n => .ok (.integer n)
  | .real x => match x.toInt?, x.read with
    | some n, _ => if -Int.pow 2 63 < n ∧ n < Int.pow 2 63 then .ok (.integer n) else complain .oversizedInteger
    | none, .finite _ _ _ => complain .fractionalInteger
    | none, _ => complain .notFinite
  | .text s => integerOfText s
  | .bytes false data => decoded integerOfText .unreadableInteger data
  | .symbol _ .plain _ v => .ok v
  | .symbol _ _ _ v => integer v
  | _ => complain .notInteger

def realOfText (s : String) : Fitted :=
  match readReal? s with
  | some x => .ok (.real x)
  | none => complain .unreadableReal

def real : Value → Fitted
  | .truth b => .ok (.real (.ofRatio false (if b then 1 else 0) 1))
  | .integer n => match Double.ofInt? n with
    | some x => .ok (.real x)
    | none => complain .notReal
  | .real x => .ok (.real x)
  | .text s => realOfText s
  | .bytes false data => decoded realOfText .unreadableReal data
  | .symbol _ .integer _ v | .symbol _ .text _ v => real v
  | _ => complain .notReal

/-- A number that means a truth value: nought or one. Numbers of more than 64 bits are not looked at. -/
def truthOfInt (n : Int) : Fitted :=
  if n = 0 then .ok (.truth false)
  else if n = 1 then .ok (.truth true)
  else if -Int.pow 2 63 ≤ n ∧ n < Int.pow 2 63 then complain .unreadableTruth
  else complain .notTruth

def truthOfText (s : String) : Fitted :=
  match readTruth? s with
  | some b => .ok (.truth b)
  | none => complain .unreadableTruth

def truth : Value → Fitted
  | .truth b => .ok (.truth b)
  | .integer n => truthOfInt n
  | .real x => match x.toInt? with
    | some n => if -Int.pow 2 63 < n then truthOfInt n else complain .notTruth
    | none => complain .notTruth
  | .text s => truthOfText s
  | .bytes false data => decoded truthOfText .unreadableTruth data
  | .symbol _ .integer _ v | .symbol _ .text _ v => truth v
  | _ => complain .notTruth

/-- Bytes pass as the text that they encode, and members of enumerations as the text that stands for them. -/
def text : Value → Fitted
  | .text s => .ok (.text s)
  | .bytes _ data => decoded (fun s => .ok (.text s)) .undecodableText data
  | .symbol _ .text _ v => text v
  | .symbol _ .integer _ v | .symbol _ .plain _ v => .ok (.text v.display)
  | _ => complain .notText

/-- A step in front of the places of problems. -/
def under {α : Type} (step : String) (x : Except (List Problem) α) : Except (List Problem) α :=
  x.mapError fun ps => ps.map fun p => { p with path := step :: p.path }

/-- Both outcomes; the problems of both if one has any. -/
def both {α β : Type} : Except (List Problem) α → Except (List Problem) β →
    Except (List Problem) (α × β)
  | .ok a, .ok b => .ok (a, b)
  | .ok _, .error qs => .error qs
  | .error ps, .ok _ => .error ps
  | .error ps, .error qs => .error (ps ++ qs)

/-- Fits the items of a list, numbered from `k`. -/
def items (fit : Value → Fitted) (k : Nat) : List Value → Except (List Problem) (List Value)
  | [] => .ok []
  | v :: vs => (both (under (toString k) (fit v)) (items fit (k + 1) vs)).map fun (w, ws) => w :: ws

/-- The place of a dictionary key. -/
def keyPlace : Value → String
  | .truth b => if b then "1" else "0"
  | v => v.display

/-- Fits the keys of a dictionary to texts. -/
def keys : List (Value × Value) → Except (List Problem) (List (Value × Value))
  | [] => .ok []
  | (k, v) :: rest =>
    (both (under (keyPlace k) (under "[key]" (text k))) (keys rest)).map fun (l, ws) => (l, v) :: ws

end Coerce

mutual

/-- Fits a value to a field type. -/
def FieldType.check : FieldType → Value → Coerce.Fitted
  | .any, v => .ok v
  | .integer, v => Coerce.integer v
  | .real, v => Coerce.real v
  | .truth, v => Coerce.truth v
  | .text, v => Coerce.text v
  | .table, v => match v with
    | .dict _ entries => (Coerce.keys entries).map fun es => .dict none (Dict.ofEntries es)
    | _ => Coerce.complain .notDict
  | .optional inner, v => match v with
    | .null => .ok .null
    | _ => inner.check v
  | .list inner, v => match v with
    | .text _ | .bytes _ _ | .dict _ _ | .symbol _ _ _ _ => Coerce.complain .notList
    | _ => match v.items? with
      | some vs => (Coerce.items inner.check 0 vs).map .list
      | none => Coerce.complain .notList
  | .nested name fields, v => match v with
    | .dict _ entries =>
      (fields.check entries).map fun own => .record none (schemaClass name fields) own []
    | _ => Coerce.complain .notRecord

/-- Fits data to typed fields. What is under no label of a field is left out. -/
def FieldList.check : FieldList → Dict → Except (List Problem) Row
  | .nil, _ => .ok []
  | .cons name label type fallback rest, data =>
    let here : Coerce.Fitted := match data.column? label, fallback with
      | some v, _ => Coerce.under label (type.check v)
      | none, some v => .ok v
      | none, none => .error [⟨[label], .missing⟩]
    (Coerce.both here (rest.check data)).map fun (v, row) => (name, v) :: row

end

mutual

/-- The streams that fitting a value to a field type reads to their ends. -/
def FieldType.reads : FieldType → Value → List Nat
  | .optional inner, v => inner.reads v
  | .list inner, v => match v with
    | .stream id vs => id.toList ++ vs.flatMap inner.reads
    | .list vs | .tuple vs | .set vs => vs.flatMap inner.reads
    | _ => []
  | .nested _ fields, .dict _ entries => fields.reads entries
  | _, _ => []

/-- The streams that fitting data to typed fields reads to their ends. -/
def FieldList.reads : FieldList → Dict → List Nat
  | .nil, _ => []
  | .cons _ label type _ rest, data => ((data.column? label).map type.reads).getD [] ++ rest.reads data

end

/-- The data of typed fields as each field finds it: a stream that one field reads is empty for those behind it. -/
def FieldList.inTurn : FieldList → Row → Row
  | .nil, row => row
  | .cons _ label type _ rest, row =>
    let read := ((row.get? label).map type.reads).getD []
    let ended (n : Nat) : Option Value := if read.contains n then some (.stream (some n) []) else none
    rest.inTurn (row.map fun (k, v) => if k = label then (k, v) else (k, v.renew ended))

/-- Fits data to a schema. -/
def Schema.check (s : Schema) (data : Dict) : Except (List Problem) Value :=
  (s.fields.check data).map fun own => .record none (schemaClass s.name s.fields) own []

end RecordSql
