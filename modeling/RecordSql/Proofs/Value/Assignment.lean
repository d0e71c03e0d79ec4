import RecordSql.Proofs.Outcome
import RecordSql.Proofs.Value.Fields

/-!
# Setting fields

Setting a field changes this field of a value and nothing else of it. So values with the same fields keep having the
same when one of them is set, and it does not matter which of two fields is set first.
-/

namespace RecordSql

namespace Value

variable {w v' w' x y : Value} {field other : String}

/-! ### One field -/

/-- A value of which a field is set and nothing else is changed. Values that are neither dictionaries nor objects keep
no fields; only a bound parameter has its value under the name. -/
inductive HasSet (field : String) (x : Value) : Value → Value → Prop
  | dict (id : Identity) (d d' : Dict)
    (h : ∀ key, d'.get? key = if (Value.text field).eqv key then some x else d.get? key) :
    HasSet field x (.dict id d) (.dict id d')
  | record (id : Identity) (cls : RecordClass) (own own' inherited : Row)
    (h : ∀ name, Row.get? own' name = if name = field then some x else Row.get? own name) :
    HasSet field x (.record id cls own inherited) (.record id cls own' inherited)
  | param (kind : ParamKind) (v : Value) (h : field = "value") : HasSet field x (.param kind v) (.param kind x)
  | fieldless (v : Value) (h : ¬ v.keepsFields) : HasSet field x v v

theorem hasSet_of_assign (h : v.assign field x = .ok v') : HasSet field x v v' := by
  cases v with
  | dict id d =>
    cases h
    exact .dict id d _ fun key => Dict.get?_set_text d field x key
  | record id cls own inherited =>
    cases h
    exact .record id cls own _ inherited fun name => Row.get?_set own field x name
  | symbol id kind name w =>
    rw [assign] at h
    split at h
    · cases h
    · cases h
      exact .fieldless _ (by simp [keepsFields])
  | param kind w =>
    rw [assign] at h
    split at h
    · rename_i hf
      cases h
      exact .param kind w hf
    · cases h
      exact .fieldless _ (by simp [keepsFields])
  | default =>
    cases h
    exact .fieldless _ (by simp [keepsFields])
  | _ => cases h

theorem HasSet.identity (h : HasSet field x v v') : v'.identity = v.identity := by
  cases h <;> rfl

/-- Whether a field of a value can be set. -/
def Accepts (v : Value) (field : String) : Prop := ∀ x, ∃ v', v.assign field x = .ok v'

theorem accepts_dict (id : Identity) (d : Dict) (field : String) : (Value.dict id d).Accepts field :=
  fun _ => ⟨_, rfl⟩

/-! ### Several fields -/

/-- Values with the same fields, whatever the order in which these were set. -/
inductive SameFields : Value → Value → Prop
  | same (v : Value) : SameFields v v
  | dict (id : Identity) (d d' : Dict) (h : ∀ key, d.get? key = d'.get? key) : SameFields (.dict id d) (.dict id d')
  | record (id : Identity) (cls : RecordClass) (own own' inherited : Row)
    (h : ∀ name, Row.get? own name = Row.get? own' name) :
    SameFields (.record id cls own inherited) (.record id cls own' inherited)

namespace SameFields

theorem trans {u : Value} (h : SameFields u v) (h' : SameFields v w) : SameFields u w := by
  cases h with
  | same => exact h'
  | dict id d d' hd => cases h' with
    | same => exact .dict id d d' hd
    | dict _ _ d'' hd' => exact .dict id d d'' fun key => (hd key).trans (hd' key)
  | record id cls own own' inherited ho => cases h' with
    | same => exact .record id cls own own' inherited ho
    | record _ _ _ own'' _ ho' => exact .record id cls own own'' inherited fun name => (ho name).trans (ho' name)

end SameFields

theorem SameFields.assign (h : SameFields v w) (field : String) (x : Value) :
    Outcome.Agree SameFields (v.assign field x) (w.assign field x) := by
  cases h with
  | same => exact .refl .same _
  | dict id d d' hd =>
    refine .ok (.dict id _ _ fun key => ?_)
    rw [Dict.get?_set_text, Dict.get?_set_text, hd]
  | record id cls own own' inherited ho =>
    refine .ok (.record id cls _ _ inherited fun name => ?_)
    rw [Row.get?_set, Row.get?_set, ho]

/-- Of two fields either can be set first. -/
theorem assign_comm (hne : field ≠ other) (v x y : Value) :
    Outcome.Agree SameFields (v.assign field x >>= (·.assign other y)) (v.assign other y >>= (·.assign field x)) := by
  cases v with
  | dict id d =>
    refine .ok (.dict id _ _ fun key => ?_)
    have hkey : ¬ ((text field).eqv key = true ∧ (text other).eqv key = true) := by
      rintro ⟨hfield, hother⟩
      rw [text_eqv] at hfield hother
      exact hne (Option.some.inj (hfield.symm.trans hother))
    simp only [Dict.get?_set_text]
    by_cases hfield : (text field).eqv key <;> by_cases hother : (text other).eqv key <;> simp_all
  | record id cls own inherited =>
    refine .ok (.record id cls _ _ inherited fun name => ?_)
    simp only [Row.get?_set]
    by_cases hfield : name = field <;> by_cases hother : name = other <;> simp_all
  | symbol id kind name w =>
    by_cases hfield : field = "name" ∨ field = "value" <;> by_cases hother : other = "name" ∨ other = "value" <;>
      simp only [Value.assign, hfield, hother, if_true, if_false, Outcome.ok_bind, Outcome.error_bind] <;>
      exact .refl .same _
  | param kind w =>
    by_cases hfield : field = "value" <;> by_cases hother : other = "value" <;>
      simp only [Value.assign, hfield, hother, if_true, if_false, Outcome.ok_bind]
    · exact absurd (hfield.trans hother.symm) hne
    · exact .refl .same _
    · exact .refl .same _
    · exact .refl .same _
  | _ => exact .refl .same _

end Value

end RecordSql
