import RecordSql.Model.Mapper
import RecordSql.Proofs.Outcome
import RecordSql.Proofs.Value.Fields

/-!
# Attributes of new records

What is made of a row by a model is an object of the class of the model. Its attributes have names of their own if the
fields of the model do.
-/

namespace RecordSql

namespace Model

theorem sublist_assignFields (fields : List Field) (given : Row) :
    ((assignFields fields given).map (·.1)).Sublist ((fields.filter (·.role ≠ .transient)).map Field.name) := by
  induction fields with
  | nil => exact .slnil
  | cons f fields ih =>
    rw [assignFields]
    by_cases hf : f.role = .transient
    · rw [hf, List.filter_cons_of_neg (by simp [hf])]
      exact ih
    · rw [List.filter_cons_of_pos (by simp [hf])]
      split
      · exact absurd ‹_› hf
      · exact ih.cons_cons f.name
      · exact ih.cons_cons f.name
      · exact ih.cons_cons f.name
      · exact ih.cons f.name

theorem sublist_assignParameter (p : Parameter) (given : Row) :
    ((assignParameter p given).map (·.1)).Sublist [p.name] := by
  have hoption : ∀ v : Option Value, ((v.map (p.name, ·)).toList.map (·.1)).Sublist [p.name] := by
    rintro (_ | v)
    · exact List.nil_sublist _
    · exact List.Sublist.refl _
  rw [assignParameter]
  split
  · exact List.Sublist.refl _
  · exact List.nil_sublist _
  · exact hoption _
  · exact hoption _

theorem nodup_assignParameters {parameters : List Parameter} (h : (parameters.map Parameter.name).Nodup) (given : Row) :
    ((assignParameters parameters given).map (·.1)).Nodup := by
  have hsublist : ((parameters.flatMap fun p => assignParameter p given).map (·.1)).Sublist
      (parameters.map Parameter.name) := by
    clear h
    induction parameters with
    | nil => exact .slnil
    | cons p parameters ih =>
      rw [List.flatMap_cons, List.map_append]
      exact (sublist_assignParameter p given).append ih
  -- the names that are no parameters are set one by one behind them
  exact Row.nodup_update (h.sublist hsublist) _

end Model

theorem Coerce.both_eq_ok {α β : Type} {x : Except (List Problem) α} {y : Except (List Problem) β} {a : α} {b : β} :
    both x y = .ok (a, b) ↔ x = .ok a ∧ y = .ok b := by
  cases x <;> cases y <;> simp [both]

theorem FieldList.names_of_check (fields : FieldList) (data : Dict) {own : Row} (h : fields.check data = .ok own) :
    own.map (·.1) = fields.names := by
  cases fields with
  | nil =>
    obtain rfl := Except.ok.inj h
    rfl
  | cons name label type fallback rest =>
    obtain ⟨⟨v, row⟩, hboth, rfl⟩ := Outcome.map_eq_ok.1 h
    rw [List.map_cons, names, names_of_check rest data (Coerce.both_eq_ok.1 hboth).2]

theorem FieldList.check_cons {name label : String} {type : FieldType} {fallback : Option Value} {rest : FieldList}
    {row own : Row} {v w : Value} (hv : row.get? label = some v) (hw : type.check v = .ok w)
    (hrest : rest.check (Dict.ofRow row) = .ok own) :
    (FieldList.cons name label type fallback rest).check (Dict.ofRow row) = .ok ((name, w) :: own) := by
  simp only [FieldList.check, Dict.column?_ofRow, hv, hw, hrest]
  rfl

/-- A new object of a class, with attributes of different names if the fields of the class are different. -/
def Value.MadeFor (cls : RecordClass) (v : Value) : Prop :=
  ∃ own inherited, v = .record none cls own inherited ∧ (cls.fields.Nodup → (own.map (·.1)).Nodup)

theorem Schema.madeFor_of_check {schema : Schema} {data : Dict} {v : Value} (h : schema.check data = .ok v) :
    v.MadeFor (Model.recordClass (.schematic schema)) := by
  obtain ⟨own, hown, rfl⟩ := Outcome.map_eq_ok.1 h
  exact ⟨own, [], rfl, fun hn => by rw [schema.fields.names_of_check data hown]; exact hn⟩

theorem Model.madeFor_of_build {model : Model} {given : Row} {v : Value} (h : model.build given = .ok v) :
    v.MadeFor model.recordClass := by
  cases model with
  | schematic schema => exact Schema.madeFor_of_check (Outcome.mapError_eq_ok.1 h)
  | fieldwise name frozen fields checks =>
    obtain ⟨_, -, h⟩ := Outcome.bind_eq_ok.1 h
    obtain ⟨_, -, h⟩ := Outcome.bind_eq_ok.1 h
    exact ⟨_, _, (Except.ok.inj h).symm, fun hn => hn.sublist (sublist_assignFields fields given)⟩
  | constructed name parameters checks =>
    obtain ⟨_, -, h⟩ := Outcome.bind_eq_ok.1 h
    obtain ⟨_, -, h⟩ := Outcome.bind_eq_ok.1 h
    exact ⟨_, _, (Except.ok.inj h).symm, fun hn => nodup_assignParameters hn given⟩

theorem Mapper.missing_eq_nil {m : Mapper} {row : Row} (h : ∀ name ∈ m.model.required, row.has name) :
    m.missing row = [] := by
  have hnone : m.model.required.filter (fun name => !row.has name) = [] := by
    rw [List.filter_eq_nil_iff]
    intro name hname
    simp [h name hname]
  rw [missing, hnone, List.eraseDups_nil, List.mergeSort_nil]

/-- Of a model without a schema, records are made by the constructor. -/
theorem Mapper.mapOne_eq_mapThrough {m : Mapper} (hs : ∀ schema, m.model ≠ .schematic schema) (row : Row) :
    m.mapOne row = m.mapThrough m.model.build row := by
  obtain ⟨model, aliases⟩ := m
  cases model with
  | schematic schema => exact absurd rfl (hs schema)
  | fieldwise name frozen fields checks => rfl
  | constructed name parameters checks => rfl

/-- A record that a mapper makes is constructed from the part of the row that is accepted. -/
theorem Mapper.construct_of_mapThrough {m : Mapper} {construct : Row → Except Failure Value} {row : Row} {v : Value}
    (h : m.mapThrough construct row = .ok v) : construct (m.acceptedPart (m.rename row)) = .ok v := by
  rw [mapThrough] at h
  split at h
  · cases h
  · exact Outcome.mapError_eq_ok.1 h

theorem Mapper.madeFor_of_mapOne {m : Mapper} {row : Row} {v : Value} (h : m.mapOne row = .ok v) :
    v.MadeFor m.model.recordClass := by
  obtain ⟨model, aliases⟩ := m
  cases model with
  | schematic schema => exact Schema.madeFor_of_check (Outcome.mapError_eq_ok.1 h)
  | fieldwise name frozen fields checks => exact Model.madeFor_of_build (construct_of_mapThrough h)
  | constructed name parameters checks => exact Model.madeFor_of_build (construct_of_mapThrough h)

end RecordSql
