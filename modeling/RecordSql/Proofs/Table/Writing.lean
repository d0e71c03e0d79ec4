import RecordSql.Proofs.Value.Fields
import RecordSql.Proofs.Value.Plain
import RecordSql.Table.Basic

/-!
# Rows that records are written to

What stands under a name in the row that a record is written to. A record whose attributes have been replaced by such
values can be written as well, and these values stand in its row.
-/

namespace RecordSql

/-! ### Picked columns -/

namespace Row

theorem nodup_pick (row : Row) (columns : List String) : ((row.pick columns).map (·.1)).Nodup := by
  induction columns using List.reverseRecOn with
  | nil => exact List.nodup_nil
  | append_singleton columns column ih =>
    rw [pick_concat]
    cases row.get? column with
    | none => exact ih
    | some v => exact nodup_set ih column v

theorem get?_pick (row : Row) (columns : List String) (name : String) :
    (row.pick columns).get? name = if name ∈ columns then row.get? name else none := by
  induction columns using List.reverseRecOn with
  | nil => rfl
  | append_singleton columns column ih =>
    rw [pick_concat]
    by_cases hname : name = column
    · subst hname
      rw [if_pos (by simp)]
      cases h : row.get? name with
      | none =>
        rw [Option.elim_none, ih, h]
        split <;> rfl
      | some v => rw [Option.elim_some, get?_set, if_pos rfl]
    · have hmem : name ∈ columns ++ [column] ↔ name ∈ columns := by simp [hname]
      rw [if_congr hmem rfl rfl, ← ih]
      cases row.get? column with
      | none => rfl
      | some v => rw [Option.elim_some, get?_set, if_neg hname]

end Row

/-! ### Fields of records -/

namespace Writer

variable {id : Identity} {cls : RecordClass} {own inherited r row : Row} {name : String}

/-- What the fields of a record have under a name: of a schema plain data, of a field list also what is read from the
class, else the attribute. -/
def field? (cls : RecordClass) (own inherited : Row) (name : String) : Option Value :=
  match cls.style with
  | .schematic => if name ∈ cls.fields then (own.get? name).bind fun v => v.plain.toOption else none
  | .fieldwise => if name ∈ cls.fields then (own.get? name).or (inherited.get? name) else none
  | _ => own.get? name

theorem get?_declaredOf {fields : List String} (h : Value.declaredOf fields (Value.plainFields own) = .ok row)
    (name : String) :
    row.get? name = if name ∈ fields then (own.get? name).bind fun v => v.plain.toOption else none := by
  induction own generalizing row with
  | nil =>
    cases h
    split <;> rfl
  | cons e own ih =>
    obtain ⟨k, v⟩ := e
    rw [Value.plainFields, Value.declaredOf, List.filter_cons] at h
    by_cases hk : k ∈ fields
    · rw [if_pos (by simpa using hk), Outcome.mapM_cons] at h
      obtain ⟨e, he, h⟩ := Outcome.bind_eq_ok.1 h
      obtain ⟨w, hw, rfl⟩ := Outcome.map_eq_ok.1 he
      obtain ⟨row, hrow, rfl⟩ := Outcome.map_eq_ok.1 h
      rw [Row.get?_cons, Row.get?_cons, ih hrow]
      by_cases hname : name = k
      · rw [if_pos hname, if_pos hname, if_pos (hname ▸ hk), Option.bind_some, hw]
        rfl
      · rw [if_neg hname, if_neg hname]
    · rw [if_neg (by simpa using hk)] at h
      rw [ih h, Row.get?_cons]
      by_cases hname : name = k
      · rw [if_neg (hname ▸ hk), if_neg (hname ▸ hk)]
      · rw [if_neg hname]

/-- A field of a list, from the record or from its class. -/
def listed (own inherited : Row) (f : String) : Except Failure (String × Value) :=
  match (own.get? f).or (inherited.get? f) with
  | some v => .ok (f, v)
  | none => .error .absentAttribute

theorem get?_listed {fields : List String} (h : fields.mapM (listed own inherited) = .ok row) (name : String) :
    row.get? name = if name ∈ fields then (own.get? name).or (inherited.get? name) else none := by
  induction fields generalizing row with
  | nil =>
    cases h
    rfl
  | cons f fields ih =>
    rw [Outcome.mapM_cons] at h
    obtain ⟨e, he, h⟩ := Outcome.bind_eq_ok.1 h
    obtain ⟨row, hrow, rfl⟩ := Outcome.map_eq_ok.1 h
    rw [listed] at he
    split at he
    · rename_i v hv
      obtain rfl := Except.ok.inj he
      rw [Row.get?_cons, ih hrow]
      by_cases hname : name = f
      · rw [if_pos hname, if_pos (List.mem_cons.2 (.inl hname)), hname, hv]
      · rw [if_neg hname]
        exact if_congr (by simp [hname]) rfl rfl
    · cases he

theorem fieldsOf_schematic (hs : cls.style = .schematic) : fieldsOf (.record id cls own inherited) =
    Value.declaredOf cls.fields (Value.plainFields own) := by
  simp only [fieldsOf, hs]

theorem fieldsOf_fieldwise (hs : cls.style = .fieldwise) : fieldsOf (.record id cls own inherited) =
    cls.fields.mapM (listed own inherited) := by
  simp only [fieldsOf, hs]
  rfl

theorem fieldsOf_other (hs : cls.style ≠ .schematic) (hf : cls.style ≠ .fieldwise) :
    fieldsOf (.record id cls own inherited) = .ok own := by
  simp only [fieldsOf]
  rfl

theorem get?_fieldsOf (h : fieldsOf (.record id cls own inherited) = .ok row) (name : String) :
    row.get? name = field? cls own inherited name := by
  rw [field?]
  split
  · rename_i hs
    rw [fieldsOf_schematic hs] at h
    exact get?_declaredOf h name
  · rename_i hs
    rw [fieldsOf_fieldwise hs] at h
    exact get?_listed h name
  · rename_i hs hf
    rw [fieldsOf_other hs hf] at h
    obtain rfl := Except.ok.inj h
    rfl

theorem field?_schematic (hs : cls.style = .schematic) {v : Value} : field? cls own inherited name = some v ↔
    name ∈ cls.fields ∧ ∃ x, own.get? name = some x ∧ x.plain = .ok v := by
  have htoOption : ∀ x : Value, x.plain.toOption = some v ↔ x.plain = .ok v := by
    intro x
    cases x.plain <;> simp [Except.toOption]
  rw [field?, hs]
  simp only
  split
  · rename_i hname
    rw [Option.bind_eq_some_iff, and_iff_right hname]
    simp only [htoOption]
  · rename_i hname
    exact iff_of_false (Option.some_ne_none v).symm fun h => hname h.1

/-- From any other record, the attributes are taken as they are. -/
theorem attribute_of_field? (hs : cls.style ≠ .schematic) {v : Value} (h : field? cls own inherited name = some v) :
    (own.get? name).or (inherited.get? name) = some v := by
  rw [field?] at h
  split at h
  · exact absurd ‹_› hs
  · split at h
    · exact h
    · cases h
  · rw [h, Option.some_or]

/-- Nothing but plain data is taken from a record of a schema. -/
theorem plain_of_field? {v : Value} (hs : cls.style = .schematic) (h : field? cls own inherited name = some v) :
    v.plain = .ok v := by
  obtain ⟨-, x, -, hx⟩ := (field?_schematic hs).1 h
  exact Value.plain_of_plain x v hx

/-- Of the fields of a record of a schema that can be written, plain data can be made. -/
theorem exists_plain {x : Value} (hs : cls.style = .schematic) (h : fieldsOf (.record id cls own inherited) = .ok row)
    (hname : name ∈ cls.fields) (hx : own.get? name = some x) : ∃ w, x.plain = .ok w := by
  rw [fieldsOf_schematic hs, Value.plainFields_eq_map] at h
  have hmem : (name, x.plain) ∈ (own.map fun e => (e.1, e.2.plain)).filter fun e => cls.fields.contains e.1 :=
    List.mem_filter.2 ⟨List.mem_map.2 ⟨_, Row.mem_of_get? hx, rfl⟩, by simpa using hname⟩
  obtain ⟨_, he⟩ := Outcome.exists_mapM_eq_ok.1 ⟨_, h⟩ _ hmem
  obtain ⟨w, hw, -⟩ := Outcome.map_eq_ok.1 he
  exact ⟨w, hw⟩

/-- What has been taken from a record for a field is what the field has when it is put there. -/
theorem field?_update {own' inherited' : Row} {v : Value} (hn : (r.map (·.1)).Nodup)
    (hr : r.get? name = some v) (hfield : field? cls own' inherited' name = some v) :
    field? cls (own.update r) inherited name = some v := by
  have hget : (own.update r).get? name = some v := by rw [Row.get?_update hn, hr, Option.some_or]
  by_cases hs : cls.style = .schematic
  · exact (field?_schematic hs).2 ⟨((field?_schematic hs).1 hfield).1, v, hget, plain_of_field? hs hfield⟩
  · rw [field?] at hfield ⊢
    rw [hget]
    split at hfield
    · exact absurd ‹_› hs
    · split at hfield
      · rename_i hname
        rw [if_pos hname, Option.some_or]
      · cases hfield
    · rfl

/-- Values that are plain data, where this matters, can take the place of attributes. -/
theorem fieldsOf_update (hn : (r.map (·.1)).Nodup) (hp : cls.style = .schematic → ∀ e ∈ r, e.2.plain = .ok e.2)
    (h : fieldsOf (.record id cls own inherited) = .ok row) :
    ∃ row', fieldsOf (.record id cls (own.update r) inherited) = .ok row' := by
  by_cases hs : cls.style = .schematic
  · rw [fieldsOf_schematic hs, Value.plainFields_eq_map] at h ⊢
    have hall := Outcome.exists_mapM_eq_ok.1 ⟨_, h⟩
    refine Outcome.exists_mapM_eq_ok.2 fun e he => ?_
    obtain ⟨hmem, hfield⟩ := List.mem_filter.1 he
    obtain ⟨e', he', rfl⟩ := List.mem_map.1 hmem
    rcases Row.mem_of_mem_update he' with hown | hr
    · exact hall _ (List.mem_filter.2 ⟨List.mem_map_of_mem hown, hfield⟩)
    · exact ⟨_, by rw [hp hs e' hr]; rfl⟩
  · by_cases hf : cls.style = .fieldwise
    · rw [fieldsOf_fieldwise hf] at h ⊢
      have hall := Outcome.exists_mapM_eq_ok.1 ⟨_, h⟩
      refine Outcome.exists_mapM_eq_ok.2 fun f hmem => ?_
      obtain ⟨e, he⟩ := hall f hmem
      rw [listed] at he ⊢
      rw [Row.get?_update hn, Option.or_assoc]
      cases hv : (own.get? f).or (inherited.get? f) with
      | none =>
        rw [hv] at he
        cases he
      | some v => cases r.get? f <;> exact ⟨_, rfl⟩
    · exact ⟨_, fieldsOf_other hs hf⟩

end Writer

end RecordSql
