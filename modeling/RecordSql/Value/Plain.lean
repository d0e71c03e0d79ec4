import RecordSql.Value.Key

/-!
# Plain data

`Value.plain` turns the records of schemas and of field lists inside a value, and its bound parameters, into
dictionaries. Records of other classes stay. A record that lacks a declared field is refused, and so is a dictionary or
a set in which something that is no key any more would be one.
-/

namespace RecordSql.Value

/-- The outcomes of attributes that are declared fields, with their names. The first failure counts. -/
def declaredOf (fields : List String) (outcomes : List (String × Except Failure Value)) : Except Failure Row :=
  (outcomes.filter fun (k, _) => fields.contains k).mapM fun (k, outcome) => outcome.map (k, ·)

/-- The outcomes of all declared fields, in their order. -/
def completeOf (fields : List String) (outcomes : List (String × Except Failure Value)) : Except Failure Row :=
  fields.mapM fun f => match outcomes.lookup f with
    | some outcome => outcome.map (f, ·)
    | none => .error .absentAttribute

mutual

/-- The value as plain data. A stream is not read: another stands in its place, which would make plain what it gives. -/
def plain : Value → Except Failure Value
  | .list vs => (plainAll vs).map .list
  | .tuple vs => (plainAll vs).map .tuple
  | .set vs => do
    let ws ← plainAll vs
    checkKeys ws
    return .set ws
  | .dict _ entries => (plainEntries entries).map (.dict none)
  | .stream _ _ => .ok (.thing "SerializationIterator")
  | .param kind v => (plain v).map fun w =>
    .dict none [(.text "kind", kind.symbol), (.text "value", w)]
  | .record id cls own inherited => match cls.style with
    | .schematic => (declaredOf cls.fields (plainFields own)).map Row.toValue
    | .fieldwise => (completeOf cls.fields (plainFields own ++ plainFields inherited)).map Row.toValue
    | _ => .ok (.record id cls own inherited)
  | v => .ok v

def plainAll : List Value → Except Failure (List Value)
  | [] => .ok []
  | v :: vs => do
    let w ← plain v
    return w :: (← plainAll vs)

def plainEntries : List (Value × Value) → Except Failure (List (Value × Value))
  | [] => .ok []
  | (k, v) :: rest => do
    let l ← plain k
    let w ← plain v
    l.checkKey
    return (l, w) :: (← plainEntries rest)

/-- The outcomes of all fields, by name. -/
def plainFields : List (String × Value) → List (String × Except Failure Value)
  | [] => []
  | (k, v) :: rest => (k, plain v) :: plainFields rest

end

end RecordSql.Value
