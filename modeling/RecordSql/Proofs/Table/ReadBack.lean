import RecordSql.Proofs.Model.Rebuilding
import RecordSql.Proofs.Model.Recovery

/-!
# Records that are read back

The row of a record of a model, read again, gives the record exactly if the model gives back what the record has:
always for a constructor; for a field list if each attribute that is no argument, and each argument that is no attribute,
has a default; and for a schema if its fields give their values back, which a field that is labelled by another name than
its own in general does not.
-/

namespace RecordSql

namespace Row

variable {row : Row} {names : List String}

theorem name_mem_of_mem_pick {e : String × Value} (h : e ∈ row.pick names) : e.1 ∈ names := by
  have hget : (row.pick names).get? e.1 = some e.2 := (get?_eq_some (nodup_pick row names)).2 h
  rw [get?_pick] at hget
  by_contra hname
  rw [if_neg hname] at hget
  cases hget

theorem get?_pick_of_mem {name : String} (h : name ∈ names) : (row.pick names).get? name = row.get? name := by
  rw [get?_pick, if_pos h]

end Row

/-- The columns of all attributes are enough. -/
theorem Mirrors.pick {own data : Row} {names : List String} (hnames : own.map (·.1) = names) (h : Mirrors own data) :
    Mirrors own (data.pick names) where
  plain := h.plain
  get? name := by
    rw [Row.get?_pick, h.get?]
    split
    · rfl
    · rename_i hname
      rw [Row.get?_eq_none (hnames ▸ hname), Option.bind_none]

namespace Model

/-- The records that a model gives back. -/
def Recovers (m : Model) (record : Value) : Prop :=
  match m with
  | .fieldwise _ _ fields _ => ∀ f ∈ fields, f.role ≠ .argument → f.isRequired = false
  | .constructed _ _ _ => True
  | .schematic schema => (FieldType.nested schema.name schema.fields).Recovers record

/-- The fields of a schema have names of their own, and so have those of the schemas in it. -/
def Distinct : Model → Prop
  | .schematic schema => (FieldType.nested schema.name schema.fields).Distinct
  | _ => True

/-- The row that a record is written to gives the record when it is read. -/
def ReadsBack (m : Model) (names : List String) (record : Value) : Prop :=
  ∃ data, Writer.fieldsOf record = .ok data ∧ (Mapper.mk m []).mapOne (data.pick names) = .ok record

variable {names : List String} {given : Row} {record : Value}

/-- A row is read as a record if a call with its picked columns is complete and assigns what the record has. -/
theorem mapOne_pick {m : Model} (ha : m.accepted = some names) (h : m.build given = .ok record) {data : Row}
    (hcomplete : m.Completes (data.pick names)) (hsame : m.AssignsAlike given (data.pick names)) :
    (Mapper.mk m []).mapOne (data.pick names) = .ok record := by
  have hs : ∀ schema, m ≠ .schematic schema := by
    rintro schema rfl
    exact hsame
  have hnames : ∀ e ∈ data.pick names, e.1 ∈ names := fun e => Row.name_mem_of_mem_pick
  exact Mapper.mapOne_of_build hs ha hnames hcomplete (build_again ha h hnames hcomplete hsame)

/-! ### Field lists -/

section Fieldwise

variable {name : String} {frozen : Bool} {fields : List Field} {checks : List Check}

theorem get?_assignFields (hn : (fields.map Field.name).Nodup) {f : Field} (hf : f ∈ fields) :
    (assignFields fields given).get? f.name = f.assigned given := by
  rw [assignFields_eq]
  exact Row.get?_filterMap hn hf

theorem get?_classAttributes (hn : (fields.map Field.name).Nodup) {f : Field} (hf : f ∈ fields) :
    (classAttributes fields).get? f.name = f.inherited := by
  rw [classAttributes_eq]
  exact Row.get?_filterMap hn hf

/-- The value for an argument of a call that was accepted. -/
theorem exists_assigned (h : (fieldwise name frozen fields checks).Completes given) {f : Field} (hf : f ∈ fields)
    (hrole : f.role = .argument) : ∃ v, f.assigned given = some v := by
  rw [Field.assigned, hrole]
  cases hget : given.get? f.name with
  | some v => exact ⟨v, rfl⟩
  | none =>
    cases hfall : f.fallback with
    | shared v => exact ⟨v, rfl⟩
    | fresh v => exact ⟨v, rfl⟩
    | none =>
      have hneeded : f.name ∈ (fieldwise name frozen fields checks).needs :=
        List.mem_map.2 ⟨f, List.mem_filter.2 ⟨hf, by simp [hrole, Field.isRequired, hfall]⟩, rfl⟩
      obtain ⟨v, hv⟩ := Row.has_iff.1 (h f.name hneeded)
      rw [hget] at hv
      cases hv

/-- Only an attribute that is no argument and has no default is missing in a record. -/
theorem assigned_or_inherited_eq_none_iff (h : (fieldwise name frozen fields checks).Completes given) {f : Field}
    (hf : f ∈ fields) (hkept : f.role ≠ .transient) :
    (f.assigned given).or f.inherited = none ↔ f.role = .preset ∧ f.isRequired = true := by
  cases hrole : f.role with
  | argument =>
    obtain ⟨v, hv⟩ := exists_assigned h hf hrole
    simp [hv]
  | preset => cases hfall : f.fallback <;> simp [Field.assigned, Field.inherited, Field.isRequired, hrole, hfall]
  | transient => exact absurd hrole hkept

/-- A record is written if it has, or its class, a value for each attribute. -/
theorem exists_fieldsOf_fieldwise_iff (hn : (fields.map Field.name).Nodup)
    (h : (fieldwise name frozen fields checks).Completes given) :
    (∃ data, Writer.fieldsOf (.record none (fieldwise name frozen fields checks).recordClass
      (assignFields fields given) (classAttributes fields)) = .ok data) ↔
      ∀ f ∈ fields, f.role = .preset → f.isRequired = false := by
  have hfields : (fieldwise name frozen fields checks).recordClass.fields =
      (fields.filter (·.role ≠ .transient)).map Field.name := rfl
  rw [Writer.fieldsOf_fieldwise rfl, hfields, Outcome.exists_mapM_eq_ok, List.forall_mem_map]
  simp only [List.mem_filter, decide_eq_true_eq, and_imp]
  refine forall₂_congr fun f hf => ?_
  by_cases hkept : f.role = .transient
  · simp [hkept]
  rw [Writer.listed, get?_assignFields hn hf, get?_classAttributes hn hf, imp_iff_right hkept]
  cases hv : (f.assigned given).or f.inherited with
  | none =>
    obtain ⟨hrole, hrequired⟩ := (assigned_or_inherited_eq_none_iff h hf hkept).1 hv
    simp [hrole, hrequired]
  | some v =>
    have hsome := mt (assigned_or_inherited_eq_none_iff h hf hkept).2 (by simp [hv])
    simpa using hsome

/-- The row of a record has for each argument what the record has for it. -/
theorem exists_get?_argument (hn : (fields.map Field.name).Nodup)
    (h : (fieldwise name frozen fields checks).Completes given) {data : Row}
    (hdata : Writer.fieldsOf (.record none (fieldwise name frozen fields checks).recordClass
      (assignFields fields given) (classAttributes fields)) = .ok data) {f : Field} (hf : f ∈ fields)
    (hrole : f.role = .argument) : ∃ v, f.assigned given = some v ∧ data.get? f.name = some v := by
  obtain ⟨v, hv⟩ := exists_assigned h hf hrole
  have hname : f.name ∈ (fieldwise name frozen fields checks).recordClass.fields :=
    List.mem_map_of_mem (List.mem_filter.2 ⟨hf, by simp [hrole]⟩)
  refine ⟨v, hv, ?_⟩
  rw [Writer.fieldsOf_fieldwise rfl] at hdata
  rw [Writer.get?_listed hdata, if_pos hname, get?_assignFields hn hf, hv, Option.some_or]

/-- A row of the listed columns has nothing for the arguments that records do not keep, so it is only read if these have
defaults. -/
theorem isRequired_of_transient (hn : (fields.map Field.name).Nodup)
    (ha : (fieldwise name frozen fields checks).accepted = some names) {row : Row}
    (h : (Mapper.mk (fieldwise name frozen fields checks) []).mapOne row = .ok record) {f : Field} (hf : f ∈ fields)
    (hrole : f.role = .transient) : f.isRequired = false := by
  by_contra hrequired
  obtain ⟨taken, htaken, -⟩ := exists_takes ha
  have hbuild := Mapper.build_of_mapOne (by rintro schema ⟨⟩) h
  obtain ⟨-, hcomplete⟩ := (checkCall_eq_ok_iff htaken).1 (build_fieldwise_eq_ok_iff.1 hbuild).1
  have hneeded : f.name ∈ (fieldwise name frozen fields checks).needs :=
    List.mem_map.2 ⟨f, List.mem_filter.2 ⟨hf, by simpa [hrole] using hrequired⟩, rfl⟩
  have hhas := hcomplete f.name hneeded
  rw [not_has_transient hn (fun e he => Mapper.mem_accepted_of_acceptedPart rfl he) hf hrole] at hhas
  cases hhas

/-- **Field lists.** What is written is read back, and all is written unless an attribute that is no argument has no
default, and read unless the constructor needs what records do not keep. -/
theorem readsBack_fieldwise_iff (hn : (fields.map Field.name).Nodup)
    (ha : (fieldwise name frozen fields checks).accepted = some names)
    (h : (fieldwise name frozen fields checks).build given = .ok record) :
    (fieldwise name frozen fields checks).ReadsBack names record ↔
      ∀ f ∈ fields, f.role ≠ .argument → f.isRequired = false := by
  obtain ⟨taken, htaken, -⟩ := exists_takes ha
  obtain ⟨hcall, -, hrecord⟩ := build_fieldwise_eq_ok_iff.1 h
  obtain ⟨-, hcomplete⟩ := (checkCall_eq_ok_iff htaken).1 hcall
  have hwritten : (∃ data, Writer.fieldsOf record = .ok data) ↔
      ∀ f ∈ fields, f.role = .preset → f.isRequired = false := by
    rw [hrecord]
    exact exists_fieldsOf_fieldwise_iff hn hcomplete
  constructor
  · rintro ⟨data, hdata, hread⟩ f hf hrole
    cases hother : f.role with
    | argument => exact absurd hother hrole
    | preset => exact hwritten.1 ⟨data, hdata⟩ f hf hother
    | transient => exact isRequired_of_transient hn ha hread hf hother
  · intro hdefaults
    obtain ⟨data, hdata⟩ := hwritten.2 fun f hf hrole => hdefaults f hf (by simp [hrole])
    have hrow : ∀ f ∈ fields, f.role = .argument → ∃ v, f.assigned given = some v ∧
        (data.pick names).get? f.name = some v := by
      intro f hf hrole
      have hname : f.name ∈ names := by
        rw [← Option.some.inj ha]
        exact List.mem_map_of_mem (List.mem_filter.2 ⟨hf, decide_eq_true hrole⟩)
      rw [Row.get?_pick_of_mem hname]
      exact exists_get?_argument hn hcomplete (hrecord ▸ hdata) hf hrole
    have hsame : (fieldwise name frozen fields checks).AssignsAlike given (data.pick names) := by
      intro f hf
      cases hrole : f.role with
      | argument =>
        obtain ⟨v, hv, hget⟩ := hrow f hf hrole
        rw [hv, Field.assigned, hrole, hget]
      | preset =>
        rw [Field.assigned, Field.assigned, hrole]
        cases f.fallback <;> rfl
      | transient => rw [Field.assigned, Field.assigned, hrole]
    have hagain : (fieldwise name frozen fields checks).Completes (data.pick names) := by
      intro n hneeded
      obtain ⟨f, hf, rfl⟩ := List.mem_map.1 hneeded
      obtain ⟨hf, hneeded⟩ := List.mem_filter.1 hf
      obtain ⟨-, hrequired⟩ := Bool.and_eq_true_iff.1 hneeded
      have hrole : f.role = .argument := by
        by_contra hrole
        rw [hdefaults f hf hrole] at hrequired
        cases hrequired
      obtain ⟨v, -, hget⟩ := hrow f hf hrole
      exact Row.has_iff.2 ⟨v, hget⟩
    exact ⟨data, hdata, mapOne_pick ha h hagain hsame⟩

end Fieldwise

/-! ### Constructors -/

/-- **Constructors.** Every record is read back. -/
theorem readsBack_constructed {name : String} {parameters : List Parameter} {checks : List Check}
    (hn : (parameters.map Parameter.name).Nodup) (ha : (constructed name parameters checks).accepted = some names)
    (h : (constructed name parameters checks).build given = .ok record) :
    (constructed name parameters checks).ReadsBack names record := by
  obtain ⟨hopen, rfl⟩ := isOpen_of_accepted ha
  have htakes : (constructed name parameters checks).takes = some _ := ha
  obtain ⟨hcall, -, hrecord⟩ := build_constructed_eq_ok_iff.1 h
  obtain ⟨-, hcomplete⟩ := (checkCall_eq_ok_iff htakes).1 hcall
  let names := (named parameters).map Parameter.name
  let row := (assignParameters parameters given).pick names
  have hget : ∀ p ∈ parameters, p.mode = .ordinary ∨ p.mode = .nameOnly → row.get? p.name = p.assigned given := by
    intro p hp hmode
    have hname : p.name ∈ names := List.mem_map_of_mem (List.mem_filter.2 ⟨hp, decide_eq_true hmode⟩)
    rw [Row.get?_pick_of_mem hname, assignParameters_eq hopen]
    exact Row.get?_filterMap hn hp
  have hsame : (constructed name parameters checks).AssignsAlike given row := by
    intro p hp
    by_cases hmode : p.mode = .ordinary ∨ p.mode = .nameOnly
    · rw [Parameter.assigned_of_named hmode, hget p hp hmode, Parameter.assigned_of_named hmode, Option.or_assoc,
        Option.or_self]
    · exact Parameter.assigned_of_unnamed hmode row given
  have hagain : (constructed name parameters checks).Completes row := by
    intro p hp hmode hnone
    obtain ⟨hposition, hhas⟩ := hcomplete p hp hmode hnone
    have hmode : p.mode = .ordinary ∨ p.mode = .nameOnly := hmode.imp_right (Or.resolve_left · hposition)
    obtain ⟨v, hv⟩ := Row.has_iff.1 hhas
    refine ⟨hposition, Row.has_iff.2 ⟨v, ?_⟩⟩
    rw [hget p hp hmode, Parameter.assigned_of_named hmode, hv, Option.some_or]
  refine ⟨assignParameters parameters given, ?_, mapOne_pick ha h hagain hsame⟩
  rw [hrecord]
  exact Writer.fieldsOf_other nofun nofun

/-! ### Schemas -/

/-- **Schemas.** The records are read back whose plain data fits the schema to them again. -/
theorem readsBack_schematic_iff {schema : Schema} (h : (schematic schema).build given = .ok record) :
    (schematic schema).ReadsBack schema.fields.names record ↔
      (FieldType.nested schema.name schema.fields).Fits record record := by
  obtain ⟨own, hown, rfl⟩ := Outcome.map_eq_ok.1 (Outcome.mapError_eq_ok.1 h)
  have hnames := schema.fields.names_of_check _ hown
  have hread : ∀ row, Mirrors own row →
      ((Mapper.mk (schematic schema) []).mapOne row =
          .ok (.record none (schemaClass schema.name schema.fields) own []) ↔
        schema.fields.Fits own own) := by
    intro row hrow
    show ((schema.fields.check (Dict.ofRow row)).map _).mapError _ = _ ↔ _
    rw [Outcome.mapError_eq_ok, Outcome.map_eq_ok, ← schema.fields.check_eq_ok_iff hrow own]
    simp
  rw [FieldType.nested_fits_iff]
  constructor
  · rintro ⟨data, hdata, hrecord⟩
    have hmirrors := mirrors_of_fieldsOf hnames hdata
    exact ⟨own, rfl, hmirrors.plain, (hread _ (hmirrors.pick hnames)).1 hrecord⟩
  · rintro ⟨own', hsame, hplain, hfits⟩
    obtain ⟨-, -, rfl, -⟩ := Value.record.inj hsame
    obtain ⟨data, hdata⟩ := exists_fieldsOf hplain
    exact ⟨data, hdata, (hread _ ((mirrors_of_fieldsOf hnames hdata).pick hnames)).2 hfits⟩

/-! ### All models -/

theorem check_eq_ok_fieldwise {name : String} {frozen : Bool} {fields : List Field} {checks : List Check}
    (h : (fieldwise name frozen fields checks).check = .ok ()) : (fields.map Field.name).Nodup := by
  rw [check] at h
  dsimp only at h
  split at h
  · cases h
  · rename_i hgood
    simp only [Bool.not_eq_true', Bool.not_eq_false, Bool.and_eq_true, decide_eq_true_eq] at hgood
    exact hgood.2

theorem check_eq_ok_constructed {name : String} {parameters : List Parameter} {checks : List Check}
    (h : (constructed name parameters checks).check = .ok ()) : (parameters.map Parameter.name).Nodup := by
  rw [check] at h
  split at h
  · rename_i hgood
    simp only [Bool.and_eq_true, decide_eq_true_eq] at hgood
    exact (List.nodup_cons.1 hgood.1.1.2).2
  · cases h

theorem readsBack_iff {m : Model} (hm : m.check = .ok ()) (hd : m.Distinct) (ha : m.accepted = some names)
    (h : m.build given = .ok record) : m.ReadsBack names record ↔ m.Recovers record := by
  cases m with
  | fieldwise name frozen fields checks => exact readsBack_fieldwise_iff (check_eq_ok_fieldwise hm) ha h
  | constructed name parameters checks => exact iff_true_intro (readsBack_constructed (check_eq_ok_constructed hm) ha h)
  | schematic schema =>
    obtain rfl := Option.some.inj ha
    exact (readsBack_schematic_iff h).trans (FieldType.recovers_iff _ hd record).symm

end Model

namespace Table

variable {m : Model} {t : Table} {name : String} {key : List String} {insertColumns : Option (List String)}

/-- Unless told otherwise, a table of a model has the arguments of the constructor as its columns. -/
theorem exists_columns_of_ofModel (h : ofModel m name key none insertColumns = .ok t) :
    ∃ names, m.accepted = some names ∧ t.read = .model ⟨m, []⟩ ∧ t.write = some (.columns names) := by
  obtain ⟨names, hnames, h⟩ := Outcome.bind_eq_ok.1 h
  rw [Model.fields] at hnames
  split at hnames
  · rename_i accepted ha
    obtain rfl := Except.ok.inj hnames
    replace h : make name key accepted (.model ⟨m, []⟩) (some (.columns accepted)) insertColumns = .ok t := h
    rw [make, check] at h
    split at h
    · cases h
    · obtain rfl := Except.ok.inj h
      exact ⟨accepted, ha, rfl, rfl⟩
  · cases hnames

/-- **Records read back.** In a table made of a model, with the columns of the model, the row of a record that a call
has built gives the record when it is read, exactly if the model gives back what the record has. -/
theorem read_of_rowOf_iff (hm : m.check = .ok ()) (hd : m.Distinct) (ht : ofModel m name key none insertColumns = .ok t)
    {given : Row} {record : Value} (h : m.build given = .ok record) :
    (∃ row, t.rowOf record = .ok (Dict.ofRow row) ∧ t.read.run row = .ok record) ↔ m.Recovers record := by
  obtain ⟨names, ha, hread, hwrite⟩ := exists_columns_of_ofModel ht
  rw [← Model.readsBack_iff hm hd ha h]
  obtain ⟨own, inherited, hrecord, -⟩ := Model.madeFor_of_build h
  have hrow : t.rowOf record = (Writer.fieldsOf record).map fun data => Dict.ofRow (data.pick names) := by
    simp only [hrecord, rowOf, hwrite]
    rfl
  rw [hrow, hread]
  constructor
  · rintro ⟨row, hrow, hrun⟩
    obtain ⟨data, hdata, hpick⟩ := Outcome.map_eq_ok.1 hrow
    obtain rfl := Dict.ofRow_inj.1 hpick
    exact ⟨data, hdata, hrun⟩
  · rintro ⟨data, hdata, hrun⟩
    exact ⟨data.pick names, Outcome.map_eq_ok.2 ⟨data, hdata, rfl⟩, hrun⟩

/-- A schema of orders: each has a buyer and tags. -/
def orderModel : Model :=
  .schematic ⟨"Order", .cons "id" "id" .integer none (.cons "buyer" "buyer" (.nested "Buyer"
    (.cons "name" "name" .text none (.cons "age" "age" (.optional .integer) (some .null) .nil))) none
    (.cons "tags" "tags" (.list .text) none .nil))⟩

/-- What an order of Ann is made from. -/
def annsData : Row :=
  [("id", .text "7"), ("buyer", Row.toValue [("name", .text "Ann")]), ("tags", .list [.text "new"])]

/-- The order. -/
def annsOrder : Value :=
  .record none orderModel.recordClass [("id", .integer 7),
    ("buyer", .record none (schemaClass "Buyer"
      (.cons "name" "name" .text none (.cons "age" "age" (.optional .integer) (some .null) .nil)))
      [("name", .text "Ann"), ("age", .null)] []),
    ("tags", .list [.text "new"])] []

/-- The buyer is written as a dictionary, and is a record again when the row is read. -/
theorem read_of_rowOf_order : ∃ t,
    orderModel.check = .ok () ∧ orderModel.Distinct ∧ ofModel orderModel "orders" ["id"] none none = .ok t ∧
    orderModel.build annsData = .ok annsOrder ∧
    ∃ row, t.rowOf annsOrder = .ok (Dict.ofRow row) ∧ t.read.run row = .ok annsOrder := by
  obtain ⟨t, ht⟩ : ∃ t, ofModel orderModel "orders" ["id"] none none = .ok t := ⟨_, rfl⟩
  have hm : orderModel.check = .ok () := rfl
  have hd : orderModel.Distinct := by
    simp [orderModel, Model.Distinct, FieldType.Distinct, FieldList.Distinct, FieldList.names]
  have hbuyer : (FieldType.nested "Buyer" (.cons "name" "name" .text none
      (.cons "age" "age" (.optional .integer) (some .null) .nil))).check (Row.toValue [("name", .text "Ann")]) =
      .ok (.record none (schemaClass "Buyer"
        (.cons "name" "name" .text none (.cons "age" "age" (.optional .integer) (some .null) .nil)))
        [("name", .text "Ann"), ("age", .null)] []) := by
    show (FieldList.check _ (Dict.ofRow [("name", .text "Ann")])).map _ = _
    simp only [FieldList.check, Dict.column?_ofRow]
    rfl
  have hbuild : orderModel.build annsData = .ok annsOrder := by
    show (Schema.check _ (Dict.ofRow annsData)).mapError _ = _
    rw [Schema.check, FieldList.check_cons rfl rfl (FieldList.check_cons rfl hbuyer (FieldList.check_cons rfl rfl rfl))]
    rfl
  have hrecovers : orderModel.Recovers annsOrder := by
    simp [orderModel, annsOrder, Model.Recovers, Model.recordClass, FieldType.Recovers, FieldList.Recovers]
  exact ⟨t, hm, hd, ht, hbuild, (read_of_rowOf_iff hm hd ht hbuild).2 hrecovers⟩

/-- A schema of users; the data has the field `id` under the label `Id`. -/
def userModel : Model := .schematic ⟨"User", .cons "id" "Id" .integer none .nil⟩

/-- A user is written under the name of the field, and the row is refused: it has nothing under the label. -/
theorem unread_label : ∃ t record,
    ofModel userModel "users" ["id"] none none = .ok t ∧ userModel.build [("Id", .integer 1)] = .ok record ∧
    t.rowOf record = .ok (Dict.ofRow [("id", .integer 1)]) ∧
    t.read.run [("id", .integer 1)] = .error (.missingFields "User" ["Id"]) := by
  refine ⟨_, .record none userModel.recordClass [("id", .integer 1)] [], rfl, ?_, rfl, ?_⟩
  · show (Schema.check _ (Dict.ofRow [("Id", .integer 1)])).mapError _ = _
    simp only [Schema.check, FieldList.check, Dict.column?_ofRow]
    rfl
  · show (Schema.check _ (Dict.ofRow [("id", .integer 1)])).mapError _ = _
    simp only [Schema.check, FieldList.check, Dict.column?_ofRow]
    rfl

end Table

end RecordSql
