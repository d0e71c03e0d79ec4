import RecordSql.Failure
import RecordSql.Value.Equality

/-!
# The items of a value

Where a sequence is asked for, a text gives its characters, a byte string its numbers, a dictionary its keys, a
collection its items, and a record of a schema its attributes, each with its name. A record that is a sequence gives
the items of its list. Other values have no items.
-/

namespace RecordSql.Value

/-- The items of a value, in order. -/
def items? : Value → Option (List Value)
  | .text s => some (s.toList.map fun c => .text c.toString)
  | .bytes _ data => some (data.map fun b => .integer b.toNat)
  | .list vs | .tuple vs | .set vs | .stream _ vs => some vs
  | .dict _ entries => some (entries.map (·.1))
  | .symbol _ .text _ v => v.items?
  | .record _ cls own _ => match cls.style with
    | .schematic => some ((own.filter fun (k, _) => k.toList.head? ≠ some '_').map fun (k, v) => .tuple [.text k, v])
    | .sequence => match own with
      | (_, .list vs) :: _ => some vs
      | _ => none
    | _ => none
  | _ => none

/-- The items of a value that has to be a sequence. -/
def items (v : Value) : Except Failure (List Value) :=
  match v.items? with
  | some vs => .ok vs
  | none => .error .wrongType

/-- The items of a value that has to be a sequence of texts. -/
def texts (v : Value) : Except Failure (List String) := do
  (← v.items).mapM fun item => match item.toText? with
    | some s => .ok s
    | none => .error .wrongType

/-- The items of a value; none at all if it counts as false. -/
def someItems? (v : Value) : Except Failure (Option (List Value)) :=
  if v.isTruthy then v.items.map some else .ok none

/-- The names that a value lists; none at all if it counts as false. -/
def names? (v : Value) : Except Failure (Option (List String)) :=
  if v.isTruthy then v.texts.map some else .ok none

end RecordSql.Value
