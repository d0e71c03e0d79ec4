import RecordSql.Proofs.Model.Attributes
import RecordSql.Proofs.Table.Sending
import RecordSql.Proofs.Table.Writing

/-!
# The caller's record

Creating and saving change the caller's record all or not at all: a failure leaves it as it was, and so does an answer
without a row. Else the columns of the record that comes back are set in it, and nothing else. They are set as the row
of that record has them, which is plain data for a record of a schema.
-/

namespace RecordSql

/-! ### Entries and attributes -/

/-- What a value has under a key: an entry, or an attribute, its own or one of its class. -/
def Value.at? : Value → Value → Option Value
  | .dict _ entries, key => Dict.get? entries key
  | .record _ _ own inherited, key => key.toText?.bind fun name => (Row.get? own name).or (Row.get? inherited name)
  | v, key => (Writer.attributes v).toOption.bind fun row => key.toText?.bind row.get?

/-- The class of an object. -/
def Value.recordClass? : Value → Option RecordClass
  | .record _ cls _ _ => some cls
  | _ => none

/-- A record of which the entries of a row are set, and nothing else is changed. -/
structure Value.UpdatedBy (record : Value) (row : Dict) (record' : Value) : Prop where
  identity : record'.identity = record.identity
  typeName : record'.typeName = record.typeName
  recordClass : record'.recordClass? = record.recordClass?
  columns : ∀ key v, row.get? key = some v → record'.at? key = some v
  others : ∀ key, row.get? key = none → record'.at? key = record.at? key

namespace Table

variable {id id' : Identity} {cls : RecordClass} {own inherited own' inherited' r : Row} {entries row : Dict}
  {record stored : Value}

theorem updatedBy_dict (he : Dict.Proper entries) (hr : Dict.Proper row) (id : Identity) :
    (Value.dict id entries).UpdatedBy row (.dict id (Dict.update entries row)) where
  identity := rfl
  typeName := rfl
  recordClass := rfl
  columns key v hv := by rw [Value.at?, Dict.get?_update he.hashable hr, hv, Option.some_or]
  others key hnone := by rw [Value.at?, Dict.get?_update he.hashable hr, hnone, Option.none_or, Value.at?]

theorem updatedBy_record (hn : (r.map (·.1)).Nodup) (id : Identity) (cls : RecordClass) (own inherited : Row) :
    (Value.record id cls own inherited).UpdatedBy (Dict.ofRow r) (.record id cls (own.update r) inherited) where
  identity := rfl
  typeName := rfl
  recordClass := rfl
  columns key v hv := by
    rw [Dict.get?_ofRow] at hv
    obtain ⟨name, hname, hv⟩ := Option.bind_eq_some_iff.1 hv
    rw [Value.at?, hname, Option.bind_some, Row.get?_update hn, hv]
    rfl
  others key hnone := by
    rw [Dict.get?_ofRow] at hnone
    rw [Value.at?, Value.at?]
    cases hname : key.toText? with
    | none => rfl
    | some name =>
      rw [hname, Option.bind_some] at hnone
      rw [Option.bind_some, Option.bind_some, Row.get?_update hn, hnone, Option.none_or]

theorem assignAll_dict (id : Identity) (entries row : Dict) :
    assignAll (.dict id entries) row = (.dict id (Dict.update entries row), none) := by
  induction row generalizing entries with
  | nil => rfl
  | cons e row ih => exact ih (Dict.set entries e.1 e.2)

theorem assignAll_record (id : Identity) (cls : RecordClass) (own inherited r : Row) :
    assignAll (.record id cls own inherited) (Dict.ofRow r) = (.record id cls (own.update r) inherited, none) := by
  induction r generalizing own with
  | nil => rfl
  | cons e r ih => exact ih (own.set e.1 e.2)

/-! ### Rows of records -/

variable {t : Table} {names : List String}

/-- A table whose records are written by their attributes: by all of them, or by those that are columns. -/
structure WritesAttributes (t : Table) : Prop where
  writer : ∀ write, t.write = some write → write = .all ∨ ∃ names, write = .columns names
  proper : ∀ cells v row, t.read.run (t.plan.visible cells) = .ok v → t.rowOf v = .ok row → Dict.Proper row

/-- The records that are read are objects of a class. -/
def Makes (t : Table) (cls : RecordClass) : Prop :=
  ∀ cells v, t.read.run (t.plan.visible cells) = .ok v → ∃ id own inherited, v = .record id cls own inherited

/-- A record of the caller: a dictionary, or an object of the class of the records that are read. -/
inductive Admits (t : Table) : Value → Prop
  | dict {id : Identity} {entries : Dict} (h : Dict.Proper entries) : Admits t (.dict id entries)
  | record {id : Identity} {cls : RecordClass} {own inherited : Row} (h : t.Makes cls) :
    Admits t (.record id cls own inherited)

/-- The row of a record has the attributes of the record as they are: of a schema, those that are plain data. -/
def Keeps (t : Table) (stored : Value) : Prop :=
  ∀ id cls own inherited names, stored = .record id cls own inherited → t.write = some (.columns names) →
    cls.style = .schematic → ∀ name ∈ names, name ∈ cls.fields → ∀ x, Row.get? own name = some x → x.plain = .ok x

theorem rowOf_of_write {write : Writer} (hw : t.write = some write) {v : Value}
    (hd : ∀ id entries, v ≠ .dict id entries) : t.rowOf v = write v := by
  cases v with
  | dict id entries => exact absurd rfl (hd id entries)
  | _ => simp only [rowOf, hw]

/-- The ways in which a row is made of what is no dictionary. -/
theorem rowOf_cases (hw : t.WritesAttributes) {v : Value} (hd : ∀ id entries, v ≠ .dict id entries)
    (hrow : t.rowOf v = .ok row) :
    (t.write = some .all ∧ ∃ r, Writer.attributes v = .ok r ∧ row = Dict.ofRow r) ∨
    ∃ names, t.write = some (.columns names) ∧ ∃ fields, Writer.fieldsOf v = .ok fields ∧
      row = Dict.ofRow (Row.pick fields names) := by
  cases hwrite : t.write with
  | none =>
    cases v with
    | dict id entries => exact absurd rfl (hd id entries)
    | _ =>
      simp only [rowOf, hwrite] at hrow
      cases hrow
  | some write =>
    rw [rowOf_of_write hwrite hd] at hrow
    rcases hw.writer write hwrite with rfl | ⟨names, rfl⟩
    · obtain ⟨r, hr, rfl⟩ := Outcome.map_eq_ok.1 hrow
      exact .inl ⟨rfl, r, hr, rfl⟩
    · obtain ⟨fields, hfields, rfl⟩ := Outcome.map_eq_ok.1 hrow
      exact .inr ⟨names, rfl, fields, hfields, rfl⟩

/-- The row of an object has names for keys. It can be set in any object of the same class that can be written, and is
then in the row of this one. -/
theorem rowOf_record (hw : t.WritesAttributes) (hr : Dict.Proper row)
    (hstored : t.rowOf (.record id' cls own' inherited') = .ok row)
    (hrecord : ∃ row, t.rowOf (.record id cls own inherited) = .ok row) :
    ∃ r, row = Dict.ofRow r ∧ (r.map (·.1)).Nodup ∧
      ∃ row', t.rowOf (.record id cls (own.update r) inherited) = .ok row' ∧
        ∀ key v, row.get? key = some v → row'.get? key = some v := by
  rcases rowOf_cases hw (by simp) hstored with ⟨hwrite, r, hattributes, rfl⟩ | ⟨names, hwrite, fields, hfields, rfl⟩
  · have hn := Dict.proper_ofRow.1 hr
    refine ⟨r, rfl, hn, Dict.ofRow (own.update r), ?_, fun key v hv => ?_⟩
    · rw [rowOf_of_write hwrite (by simp)]
      rfl
    · rw [Dict.get?_ofRow] at hv ⊢
      obtain ⟨name, hname, hv⟩ := Option.bind_eq_some_iff.1 hv
      rw [hname, Option.bind_some, Row.get?_update hn, hv, Option.some_or]
  · obtain ⟨_, hrow⟩ := hrecord
    rw [rowOf_of_write hwrite (by simp)] at hrow
    obtain ⟨_, hbefore, -⟩ := Outcome.map_eq_ok.1 hrow
    have hn := Row.nodup_pick fields names
    have hpicked : ∀ {name v}, (Row.pick fields names).get? name = some v →
        name ∈ names ∧ Writer.field? cls own' inherited' name = some v := by
      intro name v hv
      rw [Row.get?_pick] at hv
      split at hv
      · exact ⟨‹_›, by rw [← Writer.get?_fieldsOf hfields, hv]⟩
      · cases hv
    have hplain : cls.style = .schematic → ∀ e ∈ Row.pick fields names, e.2.plain = .ok e.2 := by
      intro hs e he
      exact Writer.plain_of_field? hs (hpicked ((Row.get?_eq_some hn).2 he)).2
    obtain ⟨after, hafter⟩ := Writer.fieldsOf_update hn hplain hbefore
    refine ⟨Row.pick fields names, rfl, hn, Dict.ofRow (Row.pick after names), ?_, fun key v hv => ?_⟩
    · rw [rowOf_of_write hwrite (by simp), Writer.columns, hafter]
      rfl
    · rw [Dict.get?_ofRow] at hv ⊢
      obtain ⟨name, hname, hv⟩ := Option.bind_eq_some_iff.1 hv
      obtain ⟨hmem, hfield⟩ := hpicked hv
      rw [hname, Option.bind_some, Row.get?_pick, if_pos hmem, Writer.get?_fieldsOf hafter]
      exact Writer.field?_update hn hv hfield

/-- What is an attribute of a value is there under its name. -/
theorem at?_of_attributes {v x key : Value} {r : Row} (hr : Writer.attributes v = .ok r)
    (hx : key.toText?.bind r.get? = some x) : v.at? key = some x := by
  cases v with
  | record id cls own inherited =>
    obtain rfl := Except.ok.inj hr
    obtain ⟨name, hname, hx⟩ := Option.bind_eq_some_iff.1 hx
    rw [Value.at?, hname, Option.bind_some, hx, Option.some_or]
  | param | symbol | default =>
    obtain rfl := Except.ok.inj hr
    exact hx
  | _ => cases hr

/-- The row of a record has the values of its attributes, unless it is of a schema and one of them is no plain data. -/
theorem keeps_iff (hw : t.WritesAttributes) (hrow : t.rowOf stored = .ok row) :
    (∀ key v, row.get? key = some v → stored.at? key = some v) ↔ t.Keeps stored := by
  constructor
  · rintro hall id cls own inherited names rfl hwrite hs name hname hfield x hx
    rw [rowOf_of_write hwrite (by simp)] at hrow
    obtain ⟨fields, hfields, rfl⟩ := Outcome.map_eq_ok.1 hrow
    obtain ⟨w, hw⟩ := Writer.exists_plain hs hfields hfield hx
    have hget : (Dict.ofRow (Row.pick fields names)).get? (.text name) = some w := by
      rw [Dict.get?_ofRow, Value.toText?, Option.bind_some, Row.get?_pick, if_pos hname, Writer.get?_fieldsOf hfields]
      exact (Writer.field?_schematic hs).2 ⟨hfield, x, hx, hw⟩
    have hat := hall (.text name) w hget
    rw [Value.at?, Value.toText?, Option.bind_some, hx, Option.some_or] at hat
    rwa [← Option.some.inj hat] at hw
  · intro hk key v hv
    obtain ⟨id, entries, rfl⟩ | hd : (∃ id entries, stored = .dict id entries) ∨
        ∀ id entries, stored ≠ .dict id entries := by cases stored <;> simp
    · obtain rfl := Except.ok.inj hrow
      exact hv
    rcases rowOf_cases hw hd hrow with ⟨-, r, hr, rfl⟩ | ⟨names, hwrite, fields, hfields, rfl⟩
    · rw [Dict.get?_ofRow] at hv
      exact at?_of_attributes hr hv
    rw [Dict.get?_ofRow] at hv
    obtain ⟨name, hname, hv⟩ := Option.bind_eq_some_iff.1 hv
    rw [Row.get?_pick] at hv
    split at hv
    · rename_i hmem
      cases stored with
      | record id cls own inherited =>
        rw [Writer.get?_fieldsOf hfields] at hv
        rw [Value.at?, hname, Option.bind_some]
        by_cases hs : cls.style = .schematic
        · obtain ⟨hfield, x, hx, hplain⟩ := (Writer.field?_schematic hs).1 hv
          rw [hk id cls own inherited names rfl hwrite hs name hmem hfield x hx] at hplain
          rw [hx, Option.some_or, Except.ok.inj hplain]
        · exact Writer.attribute_of_field? hs hv
      | _ => exact at?_of_attributes hfields (by rw [hname]; exact hv)
    · cases hv

/-! ### Creating and saving -/

/-- The answer, unless the record that comes back cannot be written to a row. -/
def accept (t : Table) (a : Answer) : Except Failure Answer :=
  if a.first.isNull then .ok a else (t.rowOf a.first).map fun _ => a

/-- What storing makes of the caller's record. It fails just when there is no answer or the answer is not accepted, and
then the record is as before, as it is if no row comes back. Else the columns of the first record that comes back are
set in it, with the values of the row that this is written to, and nothing else. They are then those of that record,
unless it is of a schema and one of them is no plain data. -/
structure Refreshes (t : Table) (record : Value) (answered : Except Failure Answer) (s : Stored) : Prop where
  outcome : s.outcome = answered >>= t.accept
  failed : ∀ e, s.outcome = .error e → s.record = record
  unanswered : ∀ a, s.outcome = .ok a → a.rows = [] ∨ a.first = .null → s.record = record
  refreshed : ∀ a, s.outcome = .ok a → a.first ≠ .null → ∃ row row', t.rowOf a.first = .ok row ∧
    record.UpdatedBy row s.record ∧
    t.rowOf s.record = .ok row' ∧ (∀ key v, row.get? key = some v → row'.get? key = some v) ∧
    ((∀ key v, row.get? key = some v → s.record.at? key = a.first.at? key) ↔ t.Keeps a.first)

theorem accept_of_null {a : Answer} (h : a.first = .null) : t.accept a = .ok a := by
  rw [accept, h]
  rfl

theorem accept_of_ne_null {a : Answer} (h : a.first ≠ .null) : t.accept a = (t.rowOf a.first).map fun _ => a := by
  have hnull : a.first.isNull = false := by
    cases hfirst : a.first with
    | null => exact absurd hfirst h
    | _ => rfl
  rw [accept, hnull]
  rfl

/-- A failure leaves the record as it was. -/
theorem refreshes_error (record : Value) {answered : Except Failure Answer} {e : Failure}
    (h : answered >>= t.accept = .error e) : t.Refreshes record answered ⟨.error e, record⟩ where
  outcome := h.symm
  failed _ _ := rfl
  unanswered _ _ _ := rfl
  refreshed a h := by cases h

theorem first_of_mapRows {a : Answer} (h : mapRows t.plan [] a.rows = .ok a.records) :
    (a.rows = [] → a.first = .null) ∧ (a.first ≠ .null → ∃ cells, t.read.run (t.plan.visible cells) = .ok a.first) := by
  refine ⟨fun hnil => ?_, fun hne => ?_⟩
  · rw [hnil] at h
    rw [Answer.first, ← Except.ok.inj h]
    rfl
  · cases hrecords : a.records with
    | nil => exact absurd (by rw [Answer.first, hrecords]; rfl) hne
    | cons v rest =>
      have hfirst : a.first = v := by rw [Answer.first, hrecords]; rfl
      obtain ⟨row, -, hv⟩ := Outcome.of_mem_of_mapM_eq_ok h (hrecords ▸ List.mem_cons_self : v ∈ a.records)
      obtain ⟨v', hrun, hv⟩ := Outcome.bind_eq_ok.1 hv
      obtain rfl := Except.ok.inj hv
      exact ⟨row.base, hfirst ▸ Outcome.mapError_eq_ok.1 hrun⟩

theorem refresh_of_ne_null {a : Answer} (h : a.first ≠ .null) : t.refresh record a = match t.rowOf a.first with
    | .error e => ⟨.error e, record⟩
    | .ok row => match assignAll record row with
      | (record', none) => ⟨.ok a, record'⟩
      | (record', some e) => ⟨.error e, record'⟩ := by
  unfold refresh
  split
  · exact absurd ‹_› h
  · rfl

/-- The row of a record as it is read can be set in an admitted record that can be written, and is then in the row of
this one. -/
theorem assignAll_of_read (hw : t.WritesAttributes) (hadmits : t.Admits record)
    (hrecord : ∃ row, t.rowOf record = .ok row) {cells : Row} (hread : t.read.run (t.plan.visible cells) = .ok stored)
    (hrow : t.rowOf stored = .ok row) :
    ∃ record', assignAll record row = (record', none) ∧ record.UpdatedBy row record' ∧
      ∃ row', t.rowOf record' = .ok row' ∧ ∀ key v, row.get? key = some v → row'.get? key = some v := by
  have hproper := hw.proper cells stored row hread hrow
  cases hadmits with
  | @dict id entries hentries =>
    have hupdated := updatedBy_dict hentries hproper id
    exact ⟨_, assignAll_dict id entries row, hupdated, _, rfl, hupdated.columns⟩
  | @record id cls own inherited hmakes =>
    obtain ⟨id', own', inherited', rfl⟩ := hmakes cells stored hread
    obtain ⟨r, rfl, hn, hwritten⟩ := rowOf_record hw hproper hrow hrecord
    exact ⟨_, assignAll_record id cls own inherited r, updatedBy_record hn id cls own inherited, hwritten⟩

/-- Refreshing a record that can be written, from records as they are read. -/
theorem refreshes_refresh (hw : t.WritesAttributes) (hadmits : t.Admits record)
    (hrecord : ∃ row, t.rowOf record = .ok row) {a : Answer} (hmap : mapRows t.plan [] a.rows = .ok a.records) :
    t.Refreshes record (.ok a) (t.refresh record a) := by
  by_cases hnull : a.first = .null
  · have hsame : t.refresh record a = ⟨.ok a, record⟩ := by rw [refresh, hnull]
    rw [hsame]
    refine ⟨(accept_of_null hnull).symm, (fun _ _ => rfl), (fun _ _ _ => rfl), ?_⟩
    rintro a ⟨⟩ hne
    exact absurd hnull hne
  obtain ⟨hnil, hread⟩ := first_of_mapRows hmap
  obtain ⟨cells, hcells⟩ := hread hnull
  rw [refresh_of_ne_null hnull]
  cases hrow : t.rowOf a.first with
  | error e =>
    refine refreshes_error record ?_
    rw [Outcome.ok_bind, accept_of_ne_null hnull, hrow]
    rfl
  | ok row =>
    obtain ⟨record', hall, hupdated, row', hrow', hagree⟩ := assignAll_of_read hw hadmits hrecord hcells hrow
    simp only [hall]
    refine ⟨?_, (fun _ he => nomatch he), ?_, ?_⟩
    · rw [Outcome.ok_bind, accept_of_ne_null hnull, hrow]
      rfl
    · rintro a ⟨⟩ hempty
      exact absurd (hempty.elim hnil fun h => h) hnull
    · rintro a ⟨⟩ -
      refine ⟨row, row', hrow, hupdated, hrow', hagree, ?_⟩
      rw [← keeps_iff hw hrow]
      refine forall_congr' fun key => forall_congr' fun v => forall_congr' fun hv => ?_
      rw [hupdated.columns key v hv]
      exact eq_comm

/-! ### Whole operations -/

variable {σ : Type}

theorem rowOf_of_creating (hadmits : t.Admits record) {statement : Statement} (h : t.creating record = .ok statement) :
    ∃ row, t.rowOf record = .ok row := by
  obtain ⟨i, hvalues, -⟩ := Outcome.bind_eq_ok.1 h
  obtain ⟨rows, hrows, -⟩ := Outcome.bind_eq_ok.1 hvalues
  refine Outcome.exists_mapM_eq_ok.1 ⟨rows, hrows⟩ record ?_
  cases hadmits <;> exact List.mem_singleton_self _

theorem rowOf_of_writing {statement : Statement} (h : t.writing record = .ok statement) :
    ∃ row, t.rowOf record = .ok row := by
  obtain ⟨row, hrow, -⟩ := Outcome.bind_eq_ok.1 h
  exact ⟨row, hrow⟩

/-- What a statement comes to, if there is one: the rows that it is answered by, and the records made of them. -/
def answered (t : Table) (c : Connector σ) (built : Except Failure Statement) (s : σ) : Except Failure Answer := do
  let statement ← built
  let rows ← ((c.run statement).run s).1
  (mapRows t.plan [] rows).map (⟨·, rows⟩)

theorem answered_eq (t : Table) (c : Connector σ) (built : Except Failure Statement) (s : σ) :
    ((c.store built t.plan).run s).1 = t.answered c built s := by
  cases built with
  | error e => rfl
  | ok statement => rw [Connector.run_store_of_ok, answered, Outcome.ok_bind]

/-- Storing a record that can be written if there is a statement that writes it. -/
theorem refreshes_store (hw : t.WritesAttributes) (hadmits : t.Admits record) (c : Connector σ) (s : σ)
    {built : Except Failure Statement} (hbuilt : ∀ statement, built = .ok statement → ∃ row, t.rowOf record = .ok row) :
    t.Refreshes record (t.answered c built s) ((t.store record (c.store built t.plan)).run s).1 := by
  rw [← answered_eq]
  cases hrun : (c.store built t.plan).run s with
  | mk outcome s' =>
    cases houtcome : outcome with
    | error e =>
      rw [run_store_of_error _ (houtcome ▸ hrun)]
      exact refreshes_error record rfl
    | ok a =>
      rw [run_store_of_ok _ (houtcome ▸ hrun)]
      have ha : t.answered c built s = .ok a := by rw [← answered_eq, hrun, houtcome]
      obtain ⟨statement, hstatement, ha⟩ := Outcome.bind_eq_ok.1 ha
      obtain ⟨rows, -, ha⟩ := Outcome.bind_eq_ok.1 ha
      obtain ⟨records, hmap, rfl⟩ := Outcome.map_eq_ok.1 ha
      exact refreshes_refresh hw hadmits (hbuilt statement hstatement) hmap

/-! ### Tables of rows and of models -/

/-- A table whose records are the rows themselves. -/
theorem writesAttributes_of_copy (hread : t.read = .copy) (hne : t.columns ≠ [])
    (hwrite : ∀ write, t.write = some write → write = .all ∨ ∃ names, write = .columns names) : t.WritesAttributes where
  writer := hwrite
  proper cells v row hv hrow := by
    rw [hread] at hv
    obtain rfl := Except.ok.inj hv
    obtain rfl := Except.ok.inj hrow
    rw [Plan.visible_of_columns hne]
    exact Dict.proper_ofRow.2 (Row.nodup_pick cells t.columns)

/-- A table of the records of a model, which are written by their attributes: by those that are columns, or by all,
which then have names of their own. -/
structure Holds (t : Table) (model : Model) : Prop where
  read : ∃ aliases, t.read = .model ⟨model, aliases⟩
  write : (∃ names, t.write = some (.columns names)) ∨ t.write = some .all ∧ model.recordClass.fields.Nodup

theorem Holds.makes {model : Model} (h : t.Holds model) : t.Makes model.recordClass := by
  intro cells v hv
  obtain ⟨aliases, hread⟩ := h.read
  rw [hread] at hv
  obtain ⟨own, inherited, rfl, -⟩ := Mapper.madeFor_of_mapOne hv
  exact ⟨none, own, inherited, rfl⟩

theorem Holds.writesAttributes {model : Model} (h : t.Holds model) : t.WritesAttributes where
  writer write hw := by
    rcases h.write with ⟨names, hwrite⟩ | ⟨hwrite, -⟩
    · exact .inr ⟨names, Option.some.inj (hw.symm.trans hwrite)⟩
    · exact .inl (Option.some.inj (hw.symm.trans hwrite))
  proper cells v row hv hrow := by
    obtain ⟨aliases, hread⟩ := h.read
    rw [hread] at hv
    obtain ⟨own, inherited, rfl, hown⟩ := Mapper.madeFor_of_mapOne hv
    rcases h.write with ⟨names, hwrite⟩ | ⟨hwrite, hn⟩
    · rw [rowOf_of_write hwrite (by simp)] at hrow
      obtain ⟨fields, -, rfl⟩ := Outcome.map_eq_ok.1 hrow
      exact Dict.proper_ofRow.2 (Row.nodup_pick fields names)
    · rw [rowOf_of_write hwrite (by simp)] at hrow
      obtain rfl := Except.ok.inj hrow
      exact Dict.proper_ofRow.2 (hown hn)

theorem eq_of_model {model : Model} {name : String} {key : List String}
    {columns insertColumns : Option (List String)} (h : ofModel model name key columns insertColumns = .ok t) :
    ∃ names, t = ⟨name, key, names, insertColumns.getD names, .model ⟨model, []⟩, some (.columns names)⟩ := by
  have hmake : ∃ names, make name key names (.model ⟨model, []⟩) (some (.columns names)) insertColumns = .ok t := by
    cases columns with
    | some names => exact ⟨names, h⟩
    | none =>
      obtain ⟨names, -, h⟩ := Outcome.bind_eq_ok.1 h
      exact ⟨names, h⟩
  obtain ⟨names, h⟩ := hmake
  rw [make, check] at h
  split at h
  · cases h
  · exact ⟨names, (Except.ok.inj h).symm⟩

theorem holds_of_model {model : Model} {name : String} {key : List String}
    {columns insertColumns : Option (List String)} (h : ofModel model name key columns insertColumns = .ok t) :
    t.Holds model := by
  obtain ⟨names, rfl⟩ := eq_of_model h
  exact ⟨⟨[], rfl⟩, .inl ⟨names, rfl⟩⟩

/-- **Refreshed records.** Creating and saving refresh the caller's record, if records are written by their attributes:
for every connector, a failure at any point and an answer without a row leave it as it was, and else it has the columns
of the record that comes back. All tables of rows or of models are of this kind, and in all but those of schemas the
columns are as that record has them. -/
theorem refreshes (c : Connector σ) (s : σ) :
    (∀ (t : Table) (record : Value), t.WritesAttributes → t.Admits record →
      t.Refreshes record (t.answered c (t.creating record) s) ((t.create c record).run s).1 ∧
      t.Refreshes record (t.answered c (t.writing record) s) ((t.save c record).run s).1) ∧
    (∀ t : Table, t.read = .copy → t.columns ≠ [] →
      (∀ write, t.write = some write → write = .all ∨ ∃ names, write = .columns names) → t.WritesAttributes) ∧
    (∀ (t : Table) (model : Model), t.Holds model →
      t.WritesAttributes ∧ (∀ id own inherited, t.Admits (.record id model.recordClass own inherited)) ∧
      (model.recordClass.style ≠ .schematic →
        ∀ cells v, t.read.run (t.plan.visible cells) = .ok v → t.Keeps v)) ∧
    ∀ model name key columns insertColumns t, ofModel model name key columns insertColumns = .ok t →
      t.Holds model := by
  refine ⟨fun t record ht hrecord => ⟨?_, ?_⟩, fun t => writesAttributes_of_copy,
    fun t model h => ⟨h.writesAttributes, ?_, ?_⟩, fun model name key columns insertColumns t h => holds_of_model h⟩
  · rw [create_eq]
    exact refreshes_store ht hrecord c s fun _ => rowOf_of_creating hrecord
  · rw [save_eq]
    exact refreshes_store ht hrecord c s fun _ => rowOf_of_writing
  · exact fun id own inherited => .record h.makes
  · intro hs cells v hv id cls own inherited names hrecord hwrite hcls
    obtain ⟨id', own', inherited', hv⟩ := h.makes cells v hv
    cases hv.symm.trans hrecord
    exact absurd hcls hs

/-- What creating comes to if its statement is answered by rows that records are made of. -/
theorem run_create_answering {statement : Statement} (h : t.creating record = .ok statement) {replies : List Row}
    {records : List Value} (hrecords : mapRows t.plan [] replies = .ok records) :
    ((t.create (Relation.answering replies) record).run ()).1 = t.refresh record ⟨records, replies⟩ := by
  have hrun : ((Relation.answering replies).store (.ok statement) t.plan).run () = (.ok ⟨records, replies⟩, ()) := by
    rw [Connector.run_store_of_ok]
    show ((mapRows t.plan [] replies).map _, ()) = _
    rw [hrecords]
    rfl
  rw [create_eq, h, run_store_of_ok _ hrun]

theorem mapRows_singleton {reply : Row} (h : t.read.run (t.plan.visible reply.base) = .ok stored) :
    mapRows t.plan [] [reply] = .ok [stored] := by
  have hmap : mapRow t.plan [] reply = .ok stored := by
    rw [mapRow, Plan.run, show t.plan.read.run (t.plan.visible reply.base) = .ok stored from h]
    rfl
  rw [mapRows, Outcome.mapM_cons, hmap]
  rfl

/-- There is a statement that inserts an object of which nothing but a text is written. -/
theorem creating_text (column text : String) (fields : Row) (hcolumns : t.insertColumns = [column])
    (hrow : t.rowOf (.record id cls own inherited) = .ok (Dict.ofRow fields))
    (hcell : fields.get? column = some (.text text)) :
    ∃ statement, t.creating (.record id cls own inherited) = .ok statement := by
  let i := Insertion.into t none
  have hcolumn : i.columns = [.text column] := by
    show t.insertColumns.map Value.text = _
    rw [hcolumns]
    rfl
  have hgenerated : i.generatedKey? [Dict.ofRow fields] = none := by
    unfold Insertion.generatedKey?
    split
    · rw [if_neg (by simp [hcolumn])]
    · rfl
  have hwritten : i.writtenWithout none = [.text column] := by
    have hnull : (Value.text column).eqv .null = false := by
      simp [Value.eqv, Value.scalarEq, Value.toInt?, Value.toText?]
    simp [Insertion.writtenWithout, hcolumn, hnull]
  have hvalues : i.values (.record id cls own inherited) =
      .ok ⟨t, i.columns, [.text column], ⟨[[.text text]], none⟩, none⟩ := by
    have hrows : [Value.record id cls own inherited].mapM t.rowOf = .ok [Dict.ofRow fields] := by
      rw [Outcome.mapM_cons, hrow]
      rfl
    have hcells : [Dict.ofRow fields].mapM (Insertion.cells [.text column]) = .ok [[.text text]] := by
      simp only [Outcome.mapM_cons, Insertion.cells, Dict.get?_ofRow, Value.toText?, Option.bind_some, hcell]
      rfl
    unfold Insertion.values
    show ([Value.record id cls own inherited].mapM t.rowOf >>= _) = _
    rw [hrows, Outcome.ok_bind, hgenerated, hwritten]
    show ([Dict.ofRow fields].mapM (Insertion.cells [.text column]) >>= _) = _
    rw [hcells]
    rfl
  have hparams : Param.ofValues ([[Value.text text]].flatMap boundValues) = .ok [⟨.text, .text text⟩] := rfl
  have hnames : [Value.text column].mapM columnName = .ok [column] := rfl
  have hreturning : ∀ f ∈ some (Fragment.plain "*"), f.Balanced := by
    rintro f ⟨⟩
    exact Fragment.balanced_plain.2 (by decide)
  rw [Table.creating, hvalues, Outcome.ok_bind]
  exact ⟨_, insertStatement_of_supported t.name (by simp) hparams hnames hreturning⟩

/-- Users of a frozen class, of whom only the name is inserted. -/
def frozenUser : Model := .fieldwise "User" true [⟨"id", .none, true⟩, ⟨"name", .none, true⟩] []

def frozenUsers : Table :=
  ⟨"users", ["id"], ["id", "name"], ["name"], .model ⟨frozenUser, []⟩, some (.columns ["id", "name"])⟩

theorem refreshes_frozen :
    let user (id : Value) : Value := .record none frozenUser.recordClass [("id", id), ("name", .text "Ann")] []
    let c := Relation.answering [[("id", .integer 1), ("name", .text "Ann")]]
    let stored := ((frozenUsers.create c (user .null)).run ()).1
    ofModel frozenUser "users" ["id"] none (some ["name"]) = .ok frozenUsers ∧
      frozenUsers.Refreshes (user .null) (frozenUsers.answered c (frozenUsers.creating (user .null)) ()) stored ∧
      stored.outcome = .ok ⟨[user (.integer 1)], [[("id", .integer 1), ("name", .text "Ann")]]⟩ ∧
      stored.record = user (.integer 1) := by
  intro user c stored
  let row : Row := [("id", .integer 1), ("name", .text "Ann")]
  have hmodel : ofModel frozenUser "users" ["id"] none (some ["name"]) = .ok frozenUsers := rfl
  have hholds := (refreshes c ()).2.2.2 _ _ _ _ _ _ hmodel
  obtain ⟨hwrites, hadmits, -⟩ := (refreshes c ()).2.2.1 frozenUsers frozenUser hholds
  refine ⟨hmodel, ((refreshes c ()).1 frozenUsers (user .null) hwrites (hadmits _ _ _)).1, ?_⟩
  obtain ⟨statement, hcreating⟩ : ∃ statement, frozenUsers.creating (user .null) = .ok statement :=
    creating_text "name" "Ann" [("id", .null), ("name", .text "Ann")] rfl rfl rfl
  have hmissing : (Mapper.mk frozenUser []).missing row = [] := Mapper.missing_eq_nil (by decide)
  have hread : (Mapper.mk frozenUser []).mapOne row = .ok (user (.integer 1)) := by
    show (if !((Mapper.mk frozenUser []).missing row).isEmpty then _ else _) = _
    rw [hmissing]
    rfl
  have hstored : stored = frozenUsers.refresh (user .null) ⟨[user (.integer 1)], [row]⟩ :=
    run_create_answering hcreating (mapRows_singleton hread)
  rw [hstored]
  exact ⟨rfl, rfl⟩

/-- Users of a schema, with an address in them that is of a schema itself. -/
def addressedUser : Model :=
  .schematic ⟨"User", .cons "id" "id" (.optional .integer) (some .null) <| .cons "name" "name" .text none <|
    .cons "address" "address" (.nested "Address" (.cons "street" "street" .text none .nil)) none .nil⟩

def addressedUsers : Table :=
  ⟨"users", ["id"], ["id", "name", "address"], ["name"], .model ⟨addressedUser, []⟩,
    some (.columns ["id", "name", "address"])⟩

/-- The address of a user that comes back is a record, and a dictionary is put in its place in the caller's. -/
theorem dict_for_nested_record :
    let address : Value := .record none ⟨.schematic, "Address", ["street"], false⟩ [("street", .text "Elm Street")] []
    let dict : Value := .dict none [(.text "street", .text "Elm Street")]
    let user (id : Value) : Value :=
      .record none addressedUser.recordClass [("id", id), ("name", .text "Ann"), ("address", address)] []
    let c := Relation.answering [[("id", .integer 1), ("name", .text "Ann"), ("address", dict)]]
    let stored := ((addressedUsers.create c (user .null)).run ()).1
    ofModel addressedUser "users" ["id"] none (some ["name"]) = .ok addressedUsers ∧
      (∃ answer, stored.outcome = .ok answer ∧ answer.first = user (.integer 1)) ∧
      stored.record.at? (.text "address") = some dict ∧ (user (.integer 1)).at? (.text "address") = some address := by
  intro address dict user c stored
  let row : Row := [("id", .integer 1), ("name", .text "Ann"), ("address", dict)]
  obtain ⟨statement, hcreating⟩ : ∃ statement, addressedUsers.creating (user .null) = .ok statement :=
    creating_text "name" "Ann" [("id", .null), ("name", .text "Ann"), ("address", dict)] rfl rfl rfl
  have haddress : FieldType.check (.nested "Address" (.cons "street" "street" .text none .nil)) dict = .ok address := by
    have hstreet : FieldList.check (.cons "street" "street" .text none .nil)
        (Dict.ofRow [("street", .text "Elm Street")]) = .ok [("street", .text "Elm Street")] :=
      FieldList.check_cons rfl rfl rfl
    exact Outcome.map_eq_ok.2 ⟨_, hstreet, rfl⟩
  have hread : (Mapper.mk addressedUser []).mapOne row = .ok (user (.integer 1)) :=
    Outcome.mapError_eq_ok.2 <| Outcome.map_eq_ok.2
      ⟨_, FieldList.check_cons rfl rfl (FieldList.check_cons rfl rfl (FieldList.check_cons rfl haddress rfl)), rfl⟩
  have hstored : stored = addressedUsers.refresh (user .null) ⟨[user (.integer 1)], [row]⟩ :=
    run_create_answering hcreating (mapRows_singleton hread)
  rw [hstored]
  exact ⟨rfl, ⟨_, rfl, rfl⟩, rfl, rfl⟩

end Table

end RecordSql
