import RecordSql.Failure
import RecordSql.Number.Radix
import RecordSql.Text.Word
import RecordSql.Value.Items
import RecordSql.Value.Key

/-!
# Members of enumerations

The value of a member is a whole number if the enumeration is one of numbers, and a text if it is one of texts. It is
made of what the declaration gives: of one value, or of a tuple of arguments.
-/

namespace RecordSql

/-- The whole number that a double has when what is behind the point is cut off. -/
def Double.truncate? (x : Double) : Option Int :=
  match x.read with
  | .finite neg m e =>
    let n : Nat := if 0 ≤ e then m * Nat.pow 2 e.natAbs else m / Nat.pow 2 e.natAbs
    some (if neg then -(n : Int) else n)
  | _ => none

namespace Value

/-- What the declaration of a member gives, as arguments. -/
def arguments : Value → List Value
  | .tuple vs => vs
  | v => [v]

/-- The characters of a text, or of a byte string, which has one for each byte. -/
def characters? (v : Value) : Option String :=
  match v, v.toText? with
  | .bytes _ data, _ => some (String.ofList (data.map fun b => Char.ofNat b.toNat))
  | _, spelling => spelling

/-- The whole number that a value spells in a base. Byte strings spell with the characters of ASCII only. -/
def wholeIn (base : Nat) (v : Value) : Except Failure Value :=
  match v, v.characters? with
  | _, none => .error .wrongType
  | v, some spelling =>
    let plain := match v with
      | .bytes _ data => data.all (· < 0x80)
      | _ => true
    let digits := Radix.excess? base spelling
    match if plain then Radix.read? base spelling else none, digits with
    | _, some n => .error (.oversizedWhole n)
    | some n, none => .ok (.integer n)
    | none, none => .error (.unreadableWhole base (match v with
      | .bytes _ data => (Value.bytes false data).literal
      | v => v.literal))

/-- A whole number made of arguments: nought, a number without what is behind its point, or what a text spells, if need
be in a base. -/
def wholeOf : List Value → Except Failure Value
  | [] => .ok (.integer 0)
  | [.real x] => match x.truncate? with
    | some n => .ok (.integer n)
    | none => .error (.noWhole x)
  | [v] => match v.toInt? with
    | some n => .ok (.integer n)
    | none => wholeIn 10 v
  | [v, base] => match v.characters?, base.toInt? with
    | some _, some b => if Radix.isBase b then wholeIn b.toNat v else .error .unknownBase
    | _, _ => .error .wrongType
  | _ => .error .wrongType

/-- A text made of arguments: the empty one, the text that stands for a value, or what bytes encode. -/
def textOf : List Value → Except Failure Value
  | [] => .ok (.text "")
  | [v] => .ok (.text v.display)
  | .bytes _ data :: encoding :: _ => match encoding.toText?, String.fromUTF8? ⟨data.toArray⟩ with
    | some _, some s => .ok (.text s)
    | _, _ => .error .wrongType
  | _ => .error .wrongType

/-- What a value is in an enumeration of the kind. -/
def underlying (kind : SymbolKind) (v : Value) : Except Failure Value :=
  match kind with
  | .plain => .ok v
  | .text => textOf v.arguments
  | .integer => wholeOf v.arguments

/-- Whether a name stands between as many underscores on either side, and no more. -/
def isBetween (underscores : Nat) (name : String) : Bool :=
  let count (cs : List Char) : Nat := (cs.takeWhile (· = '_')).length
  count name.toList = underscores && count name.toList.reverse = underscores && 2 * underscores < name.length

/-- Whether a name is private to the class of enumerations. Their class is always called `E`. -/
def isPrivate (name : String) : Bool :=
  name.startsWith "_E__" && 4 < name.length && !name.endsWith "__"

/-- Settings of an enumeration that take any value. -/
def settings : List String :=
  ["_generate_next_value_", "_numeric_repr_", "_missing_", "_iter_member_", "_iter_member_by_value_",
    "_iter_member_by_def_"]

/-- A failure if a value is not the order of an enumeration without members. -/
def checkOrder (v : Value) : Except Failure Unit :=
  match v.toText? with
  | some s => if s.toList.any fun c => c ≠ ',' && !Text.isSpace c then .error .wrongType else .ok ()
  | none =>
    if v.isTruthy then do
      let names ← v.items
      checkKeys names
      if !names.isEmpty then throw .wrongType
    else .ok ()

/-- A failure if a value is no list of names that are not to be members. -/
def checkIgnored (v : Value) : Except Failure Unit :=
  match v.toText? with
  | some _ => .ok ()
  | none => do checkKeys (← v.items)

/-- A failure if a value is no list of further attributes of the members. Whole numbers have none; the two that all
members but texts have cannot be listed again. -/
def checkSlots (kind : SymbolKind) (v : Value) : Except Failure Unit := do
  let names ← match v.toText? with
    | some s => pure [.text s]
    | none => v.items
  if kind = .integer ∧ !names.isEmpty then throw .wrongType
  let taken := if kind = .text then [] else ["__dict__", "__weakref__"]
  if !names.all fun name => name.toText?.any fun s => Text.isWord s && !taken.contains s then throw .wrongType

/-- A failure if the value does not fit the attribute of a class. -/
def checkAttribute (kind : SymbolKind) (name : String) (v : Value) : Except Failure Unit :=
  if name = "__order__" then checkOrder v
  else if name = "__slots__" then checkSlots kind v
  else if name = "__qualname__" ∧ v.toText? = none ∨ name = "__classcell__" then .error .wrongType
  else .ok ()

/-- A failure if the declaration makes no member of the name: private names, those between two underscores on either
side, and the settings of the enumeration are not those of members, others are reserved. -/
def checkMember (kind : SymbolKind) (name : String) (v : Value) : Except Failure Unit := do
  if isPrivate name then throw (.absentColumn name)
  if name = "" ∨ name = "mro" then throw (.reservedName name)
  if isBetween 1 name then
    if name = "_order_" then checkOrder v
    else if name = "_ignore_" then checkIgnored v
    else if !settings.contains name then throw (.reservedName name)
    throw (.absentColumn name)
  if isBetween 2 name then
    checkAttribute kind name v
    throw (.absentColumn name)

/-- A member of an enumeration, made of its name and what its declaration gives. -/
def member (kind : SymbolKind) (name : String) (v : Value) : Except Failure Value := do
  checkMember kind name v
  return .symbol none kind name (← underlying kind v)

end Value

end RecordSql
