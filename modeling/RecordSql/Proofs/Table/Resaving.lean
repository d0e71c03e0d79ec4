import Mathlib.Data.Option.Basic
import RecordSql.Proofs.Relation.Label
import RecordSql.Proofs.Table.Filling
import RecordSql.Proofs.Table.Refresh
import RecordSql.Proofs.Table.Saving

/-!
# Saving loaded records

A record that comes back from a query has its relations in it. A table of a model writes the attributes that are columns
and no others, so its records can be saved with whatever they were given. A table of rows takes a dictionary for a row:
what the record was given is set as if it were columns, and a list cannot be bound.
-/

namespace RecordSql

open RecordSql.Relation (Given Gains Gives)

/-! ### Values that can be bound -/

namespace Param

variable {v : Value} {e : Failure}

/-- Whether a value can be bound. -/
def Bindable (v : Value) : Prop := ∃ p, ofValue v = .ok p

theorem ofValue_eq_error (h : ofValue v = .error e) : ∃ kind detail, e = .unsupportedValue kind detail := by
  unfold ofValue at h
  split at h <;> (try split at h) <;> cases h <;> exact ⟨_, _, rfl⟩

theorem ofValues_eq_ok_iff {vs : List Value} : (∃ ps, ofValues vs = .ok ps) ↔ ∀ v ∈ vs, Bindable v :=
  Outcome.exists_mapM_eq_ok

theorem unsupported_of_ofValues {vs : List Value} (h : ∃ v ∈ vs, ¬ Bindable v) :
    ∃ kind detail, ofValues vs = .error (.unsupportedValue kind detail) := by
  obtain ⟨v, hv, hnot⟩ := h
  cases hvs : ofValues vs with
  | ok ps => exact absurd (ofValues_eq_ok_iff.1 ⟨ps, hvs⟩ v hv) hnot
  | error e =>
    obtain ⟨w, -, hw⟩ := Outcome.of_mapM_eq_error hvs
    obtain ⟨kind, detail, rfl⟩ := ofValue_eq_error hw
    exact ⟨kind, detail, rfl⟩

theorem not_bindable_list (items : List Value) : ¬ Bindable (.list items) := nofun

end Param

open RecordSql.Param (Bindable)

/-! ### Rows of names -/

namespace Dict

variable (r : Row)

theorem map_toText?_ofRow : (ofRow r).map (·.1.toText?) = (r.map (·.1)).map some := by
  rw [ofRow, List.map_map, List.map_map]
  rfl

theorem map_snd_ofRow : (ofRow r).map (·.2) = r.map (·.2) := by
  rw [ofRow, List.map_map]
  rfl

end Dict

theorem Row.of_mem_pick {r : Row} {columns : List String} {e : String × Value} (h : e ∈ r.pick columns) :
    e.1 ∈ columns ∧ r.get? e.1 = some e.2 := by
  have hget := (Row.get?_eq_some (Row.nodup_pick r columns)).2 h
  rw [Row.get?_pick] at hget
  split at hget
  · exact ⟨‹_›, hget⟩
  · cases hget

/-- Distinct columns are picked in their order. -/
theorem Row.sublist_pick (r : Row) {columns : List String} (hn : columns.Nodup) :
    ((r.pick columns).map (·.1)).Sublist columns := by
  rw [Row.pick_eq_cells r hn, Row.cells]
  clear hn
  induction columns with
  | nil => exact .slnil
  | cons column columns ih =>
    cases h : r.get? column with
    | none => simpa [h] using ih.cons column
    | some v => simpa [h] using ih

namespace Table

variable {t : Table} {r : Row} {row : Dict} {record : Value} {s : Statement}

/-- The values that a row has for columns can be bound. -/
def Supported (t : Table) (row : Dict) : Prop := ∀ column ∈ t.columns, ∀ v, row.column? column = some v → Bindable v

/-- A row has all key columns. -/
def Keyed (t : Table) (row : Dict) : Prop := ∀ column ∈ t.key, ∃ v, row.column? column = some v

/-! ### Statements for rows of names -/

/-- The statement that saves a row sets what the row has names for. -/
theorem sql_of_savingStatement (hne : t.key ≠ []) (h : t.savingStatement (Dict.ofRow r) = .ok s) :
    s.sql = t.savingSql (r.map (·.1)) := by
  obtain ⟨names, ps, hsavable⟩ := savable_of_savingStatement h
  obtain ⟨qs, -, hstatement⟩ := savingStatement_of_savable hne hsavable
  have hnames : names = r.map (·.1) :=
    List.map_injective_iff.2 (Option.some_injective _) (hsavable.named.symm.trans (Dict.map_toText?_ofRow r))
  rw [← hnames, Except.ok.inj (h.symm.trans hstatement)]

theorem savable_ofRow (hkey : t.Keyed (Dict.ofRow r)) (hbound : ∀ e ∈ r, Bindable e.2) :
    ∃ ps, t.Savable (Dict.ofRow r) (r.map (·.1)) ps := by
  obtain ⟨ps, hps⟩ := Param.ofValues_eq_ok_iff.2 (List.forall_mem_map.2 hbound)
  exact ⟨ps, Dict.map_toText?_ofRow r, by rw [Dict.map_snd_ofRow, hps], hkey⟩

/-- There is a statement for a row that has the key if all values can be bound. -/
theorem exists_savingStatement (hne : t.key ≠ []) (hkey : t.Keyed (Dict.ofRow r)) (hbound : ∀ e ∈ r, Bindable e.2) :
    ∃ s, t.savingStatement (Dict.ofRow r) = .ok s := by
  obtain ⟨ps, hsavable⟩ := savable_ofRow hkey hbound
  obtain ⟨qs, -, hstatement⟩ := savingStatement_of_savable hne hsavable
  exact ⟨_, hstatement⟩

/-- If the key can be bound, a value that cannot is what the row is refused for. -/
theorem savingStatement_refused (hne : t.key ≠ []) (hkey : t.Keyed (Dict.ofRow r))
    (hkeys : ∀ column ∈ t.key, ∀ v, r.get? column = some v → Bindable v) {kind : String} {detail : Option String}
    (hvalues : Param.ofValues (r.map (·.2)) = .error (.unsupportedValue kind detail)) :
    t.savingStatement (Dict.ofRow r) = .error (.unsupportedValue kind detail) := by
  obtain ⟨key, hmap⟩ : ∃ key, t.key.mapM (keyEntry (Dict.ofRow r)) = .ok key := by
    refine Outcome.exists_mapM_eq_ok.2 fun column hcolumn => ?_
    obtain ⟨v, hv⟩ := hkey column hcolumn
    exact ⟨_, keyEntry_eq_ok.2 ⟨v, hv, rfl⟩⟩
  -- the condition depends on the key alone, so it is that of the row of the key columns
  have hpicked : ∀ column ∈ t.key, (Dict.ofRow (r.pick t.key)).column? column = (Dict.ofRow r).column? column := by
    intro column hcolumn
    rw [Dict.column?_ofRow, Dict.column?_ofRow, Row.get?_pick, if_pos hcolumn]
  obtain ⟨ps, hsavable⟩ : ∃ ps, t.Savable (Dict.ofRow (r.pick t.key)) ((r.pick t.key).map (·.1)) ps := by
    refine savable_ofRow (fun column hcolumn => ?_) fun e he => ?_
    · rw [hpicked column hcolumn]
      exact hkey column hcolumn
    · obtain ⟨hcolumn, hget⟩ := Row.of_mem_pick he
      exact hkeys e.1 hcolumn e.2 hget
  have hentries : ∀ column ∈ t.key,
      Dict.column? (Dict.ofEntries key) column = (Dict.ofRow (r.pick t.key)).column? column :=
    fun column hcolumn => (column?_key hmap column hcolumn).1.trans (hpicked column hcolumn).symm
  obtain ⟨c, hc, -⟩ := keyCondition_of_savable hne hsavable hentries
  rw [← Dict.map_snd_ofRow] at hvalues
  have hrow : Dict.ofRow r ≠ [] := by
    rintro hnil
    rw [hnil] at hvalues
    cases hvalues
  rw [savingStatement_eq, hmap, Outcome.ok_bind, hc, Outcome.ok_bind]
  exact updateStatement_of_unsupported t.name hrow (mapM_columnName.2 (Dict.map_toText?_ofRow r)) hvalues

/-- A row whose values can all be bound is not refused for one of them. -/
theorem savingStatement_not_unsupported (hne : t.key ≠ []) (hbound : ∀ e ∈ r, Bindable e.2) (kind : String)
    (detail : Option String) : t.savingStatement (Dict.ofRow r) ≠ .error (.unsupportedValue kind detail) := by
  intro h
  cases hmap : t.key.mapM (keyEntry (Dict.ofRow r)) with
  | error e =>
    rw [savingStatement_eq, hmap] at h
    obtain rfl := Except.error.inj h
    obtain ⟨column, -, hentry⟩ := Outcome.of_mapM_eq_error hmap
    rw [keyEntry] at hentry
    split at hentry <;> cases hentry
  | ok key =>
    obtain ⟨s, hs⟩ := exists_savingStatement hne (fun column hcolumn => (column?_key hmap column hcolumn).2) hbound
    rw [hs] at h
    cases h

/-! ### Records of models -/

/-- Saving a record writes columns and nothing else, whatever the record was given after it had been read. -/
structure SavesColumns (t : Table) (base record : Value) : Prop where
  sets : ∀ statement, t.writing record = .ok statement →
    ∃ names, names.Nodup ∧ (∀ name ∈ names, name ∈ t.columns) ∧ statement.sql = t.savingSql names
  /-- What is written is what was read. -/
  asRead : ∀ row row', t.rowOf base = .ok row → t.rowOf record = .ok row' → row' = row
  saved : ∀ row, t.rowOf record = .ok row → t.Keyed row → t.Supported row →
    ∃ statement, t.writing record = .ok statement
  /-- No value that cannot be bound is in the way, unless one of the connector or the reader. -/
  bound : (∀ row, t.rowOf record = .ok row → t.Supported row) → ∀ {σ : Type} (c : Connector σ) (s : σ) kind detail,
    ((t.save c record).run s).1.outcome = .error (.unsupportedValue kind detail) →
    (∃ statement state, ((c.run statement).run state).1 = .error (.unsupportedValue kind detail)) ∨
      ∃ cells, t.read.run cells = .error (.unsupportedValue kind detail)

section Models

variable {id : Identity} {cls : RecordClass} {own inherited entries : Row} {kind : String} {detail : Option String}

theorem ofStatement_unsupported : OfStatement (.unsupportedValue kind detail) := ⟨.inl rfl, nofun⟩

theorem writing_of_rowOf (h : t.rowOf record = .ok row) : t.writing record = t.savingStatement row := by
  rw [writing_eq, h, Outcome.ok_bind]

theorem rowOf_columns (hwrite : t.write = some (.columns t.columns))
    (h : t.rowOf (.record id cls own inherited) = .ok row) :
    ∃ fields, Writer.fieldsOf (.record id cls own inherited) = .ok fields ∧
      row = Dict.ofRow (fields.pick t.columns) := by
  rw [rowOf_of_write hwrite (by simp)] at h
  obtain ⟨fields, hfields, rfl⟩ := Outcome.map_eq_ok.1 h
  exact ⟨fields, hfields, rfl⟩

theorem bindable_pick (h : t.Supported (Dict.ofRow (r.pick t.columns))) : ∀ e ∈ r.pick t.columns, Bindable e.2 := by
  intro e he
  refine h e.1 (Row.of_mem_pick he).1 e.2 ?_
  rw [Dict.column?_ofRow]
  exact (Row.get?_eq_some (Row.nodup_pick r t.columns)).2 he

/-- Fields that are no columns do not matter to what is written. -/
theorem rowOf_update (hwrite : t.write = some (.columns t.columns)) (hentries : (entries.map (·.1)).Nodup)
    (hapart : ∀ e ∈ entries, e.1 ∉ t.columns) {row' : Dict} (h : t.rowOf (.record id cls own inherited) = .ok row)
    (h' : t.rowOf (.record id cls (own.update entries) inherited) = .ok row') : row' = row := by
  obtain ⟨fields, hfields, rfl⟩ := rowOf_columns hwrite h
  obtain ⟨fields', hfields', rfl⟩ := rowOf_columns hwrite h'
  refine congrArg Dict.ofRow (Row.pick_congr fun column hcolumn => ?_)
  have hown : (own.update entries).get? column = own.get? column := by
    have hnone : entries.get? column = none := by
      refine Option.eq_none_iff_forall_ne_some.2 fun v hv => ?_
      exact hapart (column, v) (Row.mem_of_get? hv) hcolumn
    rw [Row.get?_update hentries, hnone, Option.none_or]
  rw [Writer.get?_fieldsOf hfields, Writer.get?_fieldsOf hfields', Writer.field?, Writer.field?, hown]

theorem not_raised_of_columns {σ : Type} {c : Connector σ} (hwrite : t.write = some (.columns t.columns))
    (h : t.Raised c (.unsupportedValue kind detail)) :
    (∃ statement state, ((c.run statement).run state).1 = .error (.unsupportedValue kind detail)) ∨
      ∃ cells, t.read.run cells = .error (.unsupportedValue kind detail) := by
  cases h with
  | connector h => exact .inl ⟨_, _, h⟩
  | reader h => exact .inr ⟨_, h⟩
  | @writer write v hw h =>
    obtain rfl := Option.some.inj (hw.symm.trans hwrite)
    cases Writer.constructed_columns t.columns v _ h

theorem savesColumns (ht : t.check = .ok t) (hwrite : t.write = some (.columns t.columns))
    (hentries : (entries.map (·.1)).Nodup) (hapart : ∀ e ∈ entries, e.1 ∉ t.columns) :
    t.SavesColumns (.record id cls own inherited) (.record id cls (own.update entries) inherited) := by
  have hne := (columns_of_check ht).1
  refine ⟨fun statement h => ?_, fun row row' => rowOf_update hwrite hentries hapart, fun row h hkeyed hsupported => ?_,
    fun hsupported σ c s kind detail h => ?_⟩
  · rw [writing_eq] at h
    obtain ⟨row, hrow, hstatement⟩ := Outcome.bind_eq_ok.1 h
    obtain ⟨fields, -, rfl⟩ := rowOf_columns hwrite hrow
    refine ⟨_, Row.nodup_pick fields t.columns, fun name hname => ?_, sql_of_savingStatement hne hstatement⟩
    obtain ⟨e, he, rfl⟩ := List.mem_map.1 hname
    exact (Row.of_mem_pick he).1
  · obtain ⟨fields, -, rfl⟩ := rowOf_columns hwrite h
    rw [writing_of_rowOf h]
    exact exists_savingStatement hne hkeyed (bindable_pick hsupported)
  · rcases writing_of_save ofStatement_unsupported h with hwriting | hraised
    · exfalso
      rw [writing_eq] at hwriting
      cases hrow : t.rowOf (.record id cls (own.update entries) inherited) with
      | error e =>
        rw [hrow] at hwriting
        obtain rfl := Except.error.inj hwriting
        rw [rowOf_of_write hwrite (by simp)] at hrow
        cases Writer.constructed_columns t.columns _ _ hrow
      | ok row =>
        rw [hrow, Outcome.ok_bind] at hwriting
        have hbound := hsupported row hrow
        obtain ⟨fields, -, rfl⟩ := rowOf_columns hwrite hrow
        exact savingStatement_not_unsupported hne (bindable_pick hbound) kind detail hwriting
    · exact not_raised_of_columns hwrite hraised

end Models

/-! ### Dictionaries -/

/-- Saving a dictionary of cells, and of what it was given for relations, sets all of it. -/
structure SavesEntries (t : Table) (rs : List Relation) (cells entries : Row) : Prop where
  columns : (cells.map (·.1)).Sublist t.columns
  given : Given rs entries
  sets : ∀ statement, t.writing (cells ++ entries).toValue = .ok statement →
    statement.sql = t.savingSql (cells.map (·.1) ++ rs.map Relation.field)
  /-- Nothing but columns is set just when there are no relations. -/
  beyond : (∀ name ∈ cells.map (·.1) ++ rs.map Relation.field, name ∈ t.columns) ↔ rs = []
  saved : t.Keyed (Dict.ofRow (cells ++ entries)) → t.Supported (Dict.ofRow (cells ++ entries)) →
    (∀ e ∈ entries, Bindable e.2) → ∃ statement, t.writing (cells ++ entries).toValue = .ok statement
  /-- What cannot be bound is refused before anything is sent; a list always is. -/
  refused : t.Keyed (Dict.ofRow (cells ++ entries)) → t.Supported (Dict.ofRow (cells ++ entries)) →
    (∃ r ∈ rs, r.reach = .many) ∨ (∃ e ∈ entries, ¬ Bindable e.2) →
    ∃ kind detail, ∀ {σ : Type} (c : Connector σ) (s : σ), (t.save c (cells ++ entries).toValue).run s =
      (⟨.error (.unsupportedValue kind detail), (cells ++ entries).toValue⟩, s)

theorem save_of_writing_error {σ : Type} {e : Failure} (h : t.writing record = .error e) (c : Connector σ) (s : σ) :
    (t.save c record).run s = (⟨.error e, record⟩, s) := by
  rw [save_eq, h]
  exact run_store_of_error s rfl

theorem not_bindable_of_many {rs : List Relation} {entries : Row} (h : Given rs entries)
    (hmany : ∃ r ∈ rs, r.reach = .many) : ∃ e ∈ entries, ¬ Bindable e.2 := by
  obtain ⟨r, hr, hreach⟩ := hmany
  induction h with
  | nil => cases hr
  | @cons r' e rs entries he hrest ih =>
    rcases List.mem_cons.1 hr with rfl | hr
    · refine ⟨e, List.mem_cons_self, ?_⟩
      have hgives := he.2
      generalize e.2 = x at hgives
      cases hgives with
      | many items _ _ => exact Param.not_bindable_list items
      | one _ _ hone _ => cases hone.symm.trans hreach
      | none hone => cases hone.symm.trans hreach
    · obtain ⟨e', he', hnot⟩ := ih hr
      exact ⟨e', List.mem_cons_of_mem _ he', hnot⟩

theorem savesEntries (ht : t.check = .ok t) {rs : List Relation} {cells entries : Row}
    (hcolumns : (cells.map (·.1)).Sublist t.columns) (hgiven : Given rs entries)
    (hapart : ∀ r ∈ rs, r.field ∉ t.columns) (hn : ((cells ++ entries).map (·.1)).Nodup) :
    t.SavesEntries rs cells entries := by
  have hne := (columns_of_check ht).1
  have hwriting : t.writing (cells ++ entries).toValue = t.savingStatement (Dict.ofRow (cells ++ entries)) :=
    writing_of_rowOf rfl
  have hcells : t.Supported (Dict.ofRow (cells ++ entries)) → ∀ e ∈ cells, Bindable e.2 := by
    intro hsupported e he
    refine hsupported e.1 (hcolumns.subset (List.mem_map_of_mem he)) e.2 ?_
    rw [Dict.column?_ofRow]
    exact (Row.get?_eq_some hn).2 (List.mem_append_left _ he)
  refine ⟨hcolumns, hgiven, fun statement h => ?_, ⟨fun hall => ?_, ?_⟩, fun hkeyed hsupported hbound => ?_,
    fun hkeyed hsupported hnot => ?_⟩
  · rw [hwriting] at h
    rw [sql_of_savingStatement hne h, List.map_append, hgiven.fields]
  · refine List.eq_nil_iff_forall_not_mem.2 fun r hr => ?_
    exact hapart r hr (hall _ (List.mem_append_right _ (List.mem_map_of_mem hr)))
  · rintro rfl
    rw [List.map_nil, List.append_nil]
    exact fun name hname => hcolumns.subset hname
  · rw [hwriting]
    exact exists_savingStatement hne hkeyed (List.forall_mem_append.2 ⟨hcells hsupported, hbound⟩)
  · obtain ⟨e, he, hnot⟩ := hnot.elim (not_bindable_of_many hgiven) fun h => h
    have hkeys : ∀ column ∈ t.key, ∀ v, (cells ++ entries).get? column = some v → Bindable v := by
      intro column hcolumn v hv
      exact hsupported column (key_subset_of_check ht column hcolumn) v ((Dict.column?_ofRow _ _).trans hv)
    obtain ⟨kind, detail, hvalues⟩ := Param.unsupported_of_ofValues
      ⟨e.2, List.mem_map_of_mem (List.mem_append_right cells he), hnot⟩
    have hrefused := savingStatement_refused hne hkeyed hkeys hvalues
    exact ⟨kind, detail, fun c s => save_of_writing_error (hwriting.trans hrefused) c s⟩

end Table

namespace Query

variable {σ : Type} {c : Connector σ} {q : Query} {a : Answer} {s t : σ}

/-- **Saving what was loaded.** A record of a query with relations whose fields are no columns can be saved if the
table is that of a model: columns are written as they were read, and nothing else. If the table is one of rows, the
fields of all relations are set behind the columns, and saving is refused for what cannot be bound of them. -/
theorem saves_loaded (ht : q.table.check = .ok q.table) (hfields : (q.relations.map (·.1.field)).Nodup)
    (hapart : ∀ e ∈ q.relations, e.1.field ∉ q.table.columns) (h : (q.get c).run s = (.ok a, t)) {record : Value}
    (hrecord : record ∈ a.records) :
    (∀ model name key columns insertColumns, Table.ofModel model name key columns insertColumns = .ok q.table →
      ∃ row base, q.table.plan.run row = .ok base ∧ Gains q.loads base record ∧ q.table.SavesColumns base record) ∧
    (q.table.read = .copy → ∃ cells entries : Row,
      record = (cells ++ entries).toValue ∧ q.table.SavesEntries q.loads cells entries) := by
  obtain ⟨row, base, hbase, entries, hgiven, hassign⟩ := gains_of_get h record hrecord
  have hentries : (entries.map (·.1)).Nodup := by
    rw [hgiven.fields]
    exact nodup_loads hfields
  have hloads : ∀ r ∈ q.loads, r.field ∉ q.table.columns := by
    intro r hr
    obtain ⟨e, he, rfl⟩ := mem_loads.1 hr
    exact hapart e he
  have hnew : ∀ e ∈ entries, e.1 ∉ q.table.columns := by
    intro e he
    have hfield : e.1 ∈ q.loads.map Relation.field := hgiven.fields ▸ List.mem_map_of_mem he
    obtain ⟨r, hr, hname⟩ := List.mem_map.1 hfield
    exact hname ▸ hloads r hr
  refine ⟨fun model name key columns insertColumns hmodel => ?_, fun hread => ?_⟩
  · obtain ⟨id, own, inherited, rfl⟩ := (Table.holds_of_model hmodel).makes _ _ (Outcome.mapError_eq_ok.1 hbase)
    have hwrite : q.table.write = some (.columns q.table.columns) := by
      obtain ⟨names, htable⟩ := Table.eq_of_model hmodel
      rw [htable]
    refine ⟨row, _, hbase, ⟨entries, hgiven, hassign⟩, ?_⟩
    obtain rfl := Except.ok.inj ((Value.assignEach_record ..).symm.trans hassign)
    exact Table.savesColumns ht hwrite hentries hnew
  · have hcopied : base = (q.table.plan.visible row).toValue := by
      have hrun := Outcome.mapError_eq_ok.1 hbase
      rw [show q.table.plan.read = .copy from hread] at hrun
      exact (Except.ok.inj hrun).symm
    obtain ⟨hne, hcolumns⟩ := Table.columns_of_fault? (Table.fault?_of_check ht)
    rw [Plan.visible_of_columns hne] at hcopied
    have hn : ((row.pick q.table.columns ++ entries).map (·.1)).Nodup := by
      rw [List.map_append, List.nodup_append]
      refine ⟨Row.nodup_pick _ _, hentries, ?_⟩
      rintro _ hcell _ hentry rfl
      obtain ⟨e, he, hname⟩ := List.mem_map.1 hentry
      exact hnew e he (hname ▸ (Row.sublist_pick row hcolumns).subset hcell)
    rw [hcopied] at hassign
    refine ⟨row.pick q.table.columns, entries, Except.ok.inj (hassign.symm.trans (Value.assignEach_toValue hn)), ?_⟩
    exact Table.savesEntries ht (Row.sublist_pick row hcolumns) hgiven hloads hn

/-- The query for all records of a table with one relation. -/
def loading (r : Relation) : Query := ⟨r.source, ⟨none, none, none⟩, [(r, false)], none⟩

/-- What a relation to many loads if the rows themselves are the replies. -/
theorem run_loading {r : Relation} {rows : List Row} {records records' keys : List Value} {ps : List Param}
    {groups : Groups} (hmany : r.reach = .many) (hfresh : r.source.read.source = none)
    (hrecords : mapRows r.source.plan [] rows = .ok records) (hkeys : r.collectKeys rows = .ok keys) (hne : keys ≠ [])
    (hbound : Param.ofValues keys = .ok ps) (hgroups : rows.foldlM r.addToGroup [] = .ok groups)
    (hattach : r.attach groups records rows = ⟨records', none⟩) :
    ((loading r).get (Relation.answering rows)).run () = (.ok ⟨records', rows⟩, ()) := by
  have hcan : r.canJoin false = false := by simp [Relation.canJoin, hmany]
  have hjoined : (loading r).joined = [] := by simp [joined, loading, hcan]
  have hbatched : (loading r).batched = [r] := by simp [batched, loading, hcan]
  have hanswer : ∀ records, (loading r).answer rows records = ⟨records, rows⟩ := by
    intro records
    rw [answer, Reader.putBack, show (loading r).table.read.source = none from hfresh]
  obtain ⟨main, hmain⟩ : ∃ main, (loading r).statement = .ok main := by
    have hcompile : (loading r).statement = selectStatement r.source.name
        ⟨(none : Option Fragment).map .ok, (none : Option Fragment).map .ok, (none : Option Fragment).map .ok⟩ []
        [] := by
      show (loading r).compile = _
      rw [compile, hjoined]
      rfl
    rw [hcompile]
    exact ⟨_, selectStatement_of_balanced r.source.name (by simp) (by simp) (by simp) (by simp) (by simp)⟩
  obtain ⟨statement, hstatement, -⟩ := Relation.batchStatement_of_supported (r := r) hne hbound
  have hload : (r.load (Relation.answering rows) records rows).run () = (⟨records', none⟩, ()) := by
    refine Relation.load_eq_ok.2 ⟨groups, ?_, hattach⟩
    rw [Relation.run_fetch_of_keys hkeys hne]
    exact Relation.exchange_eq_ok.2 ⟨statement, rows, hstatement, rfl, hgroups⟩
  have hmapped : mapRows (loading r).table.plan ((loading r).joined.map Relation.joinedPlan) rows = .ok records := by
    rw [hjoined]
    exact hrecords
  refine getWith_eq_ok.2 ⟨main, rows, (), hmain, rfl, ?_⟩
  rw [finish, hmapped, hbatched, Task.ofExcept_ok_bind, hanswer, run_loadAll_of_loaded hload, hanswer]
  rfl

end Query

/-- The row of a user who has posted, which is the row of the post as well. -/
def postingRow : Row := [("id", .integer 7), ("name", .text "Ann"), ("user", .integer 7), (relationKey, .integer 7)]

/-- The posts of the user. -/
def postsOfPosting : Value := .list [.dict none [(.text "id", .integer 7), (.text "user", .integer 7)]]

/-- The query for users with their posts finds the user with the post. -/
theorem run_posting (source : Table) (hfresh : source.read.source = none) {record record' : Value}
    (hrecord : mapRows source.plan [] [postingRow] = .ok [record])
    (hassign : record.assign "posts" postsOfPosting = .ok record') :
    ((Query.loading { Relation.postsOfUsers with source := source }).get (Relation.answering [postingRow])).run () =
      (.ok ⟨[record'], [postingRow]⟩, ()) := by
  let r : Relation := { Relation.postsOfUsers with source := source }
  let groups : Groups := [(.integer 7, [.dict none [(.text "id", .integer 7), (.text "user", .integer 7)]])]
  have hsame : (Value.integer 7).eqv (.integer 7) = true := by
    have hscalar : (Value.integer 7).scalarEq (.integer 7) = true := rfl
    simpa [Value.eqv] using hscalar
  have hattached : r.attached groups postingRow = postsOfPosting := by
    rw [Relation.attached, show r.parentValue postingRow = .integer 7 from rfl, Groups.get_cons, if_pos hsame]
    rfl
  have hattach : r.attach groups [record] [postingRow] = ⟨[record'], none⟩ := by
    rw [Relation.attach, hattached, show record.assign r.field postsOfPosting = .ok record' from hassign]
    rfl
  have hkeys : r.collectKeys [postingRow] = .ok [.integer 7] := rfl
  exact Query.run_loading rfl hfresh hrecord hkeys (by simp) rfl rfl hattach

/-- A user of a frozen class is saved without the posts that were put into it. -/
theorem saves_loaded_posting :
    let q := Query.loading { Relation.postsOfUsers with source := Table.frozenUsers }
    let user : Value := .record none Table.frozenUser.recordClass
      [("id", .integer 7), ("name", .text "Ann"), ("posts", postsOfPosting)] []
    q.table.check = .ok q.table ∧ (q.relations.map (·.1.field)).Nodup ∧
    (∀ e ∈ q.relations, e.1.field ∉ q.table.columns) ∧
    (q.get (Relation.answering [postingRow])).run () = (.ok ⟨[user], [postingRow]⟩, ()) ∧
    ∃ statement names, q.table.writing user = .ok statement ∧ statement.sql = q.table.savingSql names ∧
      "posts" ∉ names := by
  intro q user
  have hmodel : Table.ofModel Table.frozenUser "users" ["id"] none (some ["name"]) = .ok q.table := rfl
  have hcheck : q.table.check = .ok q.table := rfl
  have hapart : ∀ e ∈ q.relations, e.1.field ∉ q.table.columns := List.forall_mem_singleton.2 (by decide)
  have hread : mapRows Table.frozenUsers.plan [] [postingRow] =
      .ok [.record none Table.frozenUser.recordClass [("id", .integer 7), ("name", .text "Ann")] []] := by
    refine Table.mapRows_singleton ?_
    show (if !(Mapper.missing ⟨Table.frozenUser, []⟩ _).isEmpty then _ else _) = _
    rw [Mapper.missing_eq_nil (by decide)]
    rfl
  have hget : (q.get (Relation.answering [postingRow])).run () = (.ok ⟨[user], [postingRow]⟩, ()) :=
    run_posting Table.frozenUsers rfl hread rfl
  obtain ⟨-, base, -, -, hsaves⟩ := (Query.saves_loaded hcheck (List.nodup_singleton _) hapart hget
    (List.mem_singleton_self user)).1 _ _ _ _ _ hmodel
  have hrow : q.table.rowOf user = .ok [(.text "id", .integer 7), (.text "name", .text "Ann")] := by rfl
  have hid : Bindable (.integer 7) := ⟨_, rfl⟩
  have hname : Bindable (.text "Ann") := ⟨_, rfl⟩
  obtain ⟨statement, hstatement⟩ := hsaves.saved _ hrow
    (by simp [Table.Keyed, q, Query.loading, Table.frozenUsers, Dict.column?_cons, Value.toText?])
    (by simp [Table.Supported, q, Query.loading, Table.frozenUsers, Dict.column?_cons, Value.toText?, hid, hname])
  obtain ⟨names, -, hnames, hsql⟩ := hsaves.sets statement hstatement
  refine ⟨hcheck, List.nodup_singleton _, hapart, hget, statement, names, hstatement, hsql, fun hposts => ?_⟩
  exact absurd (hnames _ hposts) (by decide)

/-- A user that is a dictionary is refused with the posts that were put into it. -/
theorem list_set_as_column :
    let users := Relation.postsOfUsers.source
    let user : Value := .dict none [(.text "id", .integer 7), (.text "posts", postsOfPosting)]
    users.check = .ok users ∧ users.read = .copy ∧ Relation.postsOfUsers.field ∉ users.columns ∧
    ((Query.loading Relation.postsOfUsers).get (Relation.answering [postingRow])).run () =
      (.ok ⟨[user], [postingRow]⟩, ()) ∧
    users.Supported [(.text "id", .integer 7), (.text "posts", postsOfPosting)] ∧
    ∀ {σ : Type} (c : Connector σ) (s : σ),
      (users.save c user).run s = (⟨.error (.unsupportedValue "list" none), user⟩, s) := by
  intro users user
  have hid : Bindable (.integer 7) := ⟨_, rfl⟩
  have hwriting : users.writing user = .error (.unsupportedValue "list" none) := by
    let row : Row := [("id", .integer 7), ("posts", postsOfPosting)]
    have hkeyed : users.Keyed (Dict.ofRow row) := by
      simp [Table.Keyed, users, Relation.postsOfUsers, Dict.column?_ofRow, row, Row.get?_cons]
    have hkeys : ∀ column ∈ users.key, ∀ v, row.get? column = some v → Bindable v := by
      intro column hcolumn v hv
      obtain rfl := List.mem_singleton.1 hcolumn
      obtain rfl := Option.some.inj hv
      exact hid
    rw [Table.writing_eq, show users.rowOf user = .ok (Dict.ofRow row) from rfl, Outcome.ok_bind]
    exact Table.savingStatement_refused (by decide) hkeyed hkeys rfl
  have hassign : (Row.toValue [("id", .integer 7)]).assign "posts" postsOfPosting = .ok user := by
    show Except.ok (Value.dict none ((Dict.ofRow [("id", .integer 7)]).set (.text "posts") postsOfPosting)) = _
    rw [Dict.set_ofRow]
    rfl
  refine ⟨rfl, rfl, by decide, run_posting users rfl rfl hassign, ?_, Table.save_of_writing_error hwriting⟩
  simp [Table.Supported, users, Relation.postsOfUsers, Dict.column?_cons, Value.toText?, hid]

end RecordSql
