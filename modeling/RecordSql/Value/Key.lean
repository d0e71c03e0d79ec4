import RecordSql.Failure
import RecordSql.Value.Equality

/-!
# Keys

`Value.checkKey` refuses what cannot be a key: collections that can be changed, records that take part in equality and
are not frozen, and whatever holds such a thing. A frozen record is a key by its fields, so it has to have all of them.
-/

namespace RecordSql.Value

mutual

/-- A failure if the value cannot be a key. -/
def checkKey : Value → Except Failure Unit
  | .list _ | .set _ | .dict _ _ | .bytes true _ => .error .wrongType
  | .tuple items => checkKeys items
  | .param _ v => checkKey v
  | .record _ cls own inherited => match cls.style with
    | .constructed | .bare | .sequence => .ok ()
    | .schematic => .error .wrongType
    | .fieldwise =>
      if !cls.frozen then .error .wrongType
      else if cls.fields.all fun f => Row.has own f || Row.has inherited f then do
        checkKeyFields cls own
        checkKeyFields cls inherited
      else .error .absentAttribute
  | _ => .ok ()

def checkKeys : List Value → Except Failure Unit
  | [] => .ok ()
  | v :: vs => do
    checkKey v
    checkKeys vs

/-- A failure if the value of a declared field cannot be a key. -/
def checkKeyFields (cls : RecordClass) : List (String × Value) → Except Failure Unit
  | [] => .ok ()
  | (k, v) :: rest => do
    if cls.fields.contains k then checkKey v
    checkKeyFields cls rest

end

end RecordSql.Value
