import RecordSql.Proofs.Sql.Listing
import RecordSql.Proofs.Table.Matching
import RecordSql.Proofs.Table.Sending

/-!
# Saving by the record's own key

Saving a record sends one statement at most. It sets all columns of the row and selects by all key columns, and each of
these is compared with the value that it is set to.

* `Table.savingSql`: the statement, in full.
* `Table.Savable`: the rows that there is such a statement for.
* `Table.saves_by_own_key`: what saving sends, and when it sends nothing.
-/

namespace RecordSql

/-! ### The values of a key -/

/-- A dictionary of columns has them, and no others. -/
theorem Dict.column?_ofEntries (columns : List String) (f : String → Value) (column : String) :
    (Dict.ofEntries (columns.map fun c => (.text c, f c))).column? column =
      if column ∈ columns then some (f column) else none := by
  induction columns using List.reverseRecOn with
  | nil => rfl
  | append_singleton columns c ih =>
    have hset : Dict.ofEntries ((columns ++ [c]).map fun c => (.text c, f c)) =
        (Dict.ofEntries (columns.map fun c => (.text c, f c))).set (.text c) (f c) := by
      rw [ofEntries, List.map_append, List.foldl_append]
      rfl
    rw [hset, column?_set, ih]
    by_cases hc : column = c
    · simp [hc]
    · simp [hc]

namespace Table

variable {t : Table} {row entries : Dict} {id : Identity} {names : List String} {ps qs : List Param} {s : Statement}
  {c : Condition} {column : String} {v : Value} {q : Param}

theorem keyValue_dict : keyValue column (.dict id entries) = .ok v ↔ Dict.column? entries column = some v := by
  rw [keyValue]
  split <;> simp_all

/-- What a row has for a column is what the column is set to. -/
theorem mem_zip_of_column? (hnames : row.map (·.1.toText?) = names.map some)
    (hps : Param.ofValues (row.map (·.2)) = .ok ps) (hv : row.column? column = some v) (hq : Param.ofValue v = .ok q) :
    (column, q) ∈ names.zip ps := by
  induction row generalizing names ps with
  | nil => cases hv
  | cons e row ih =>
    obtain ⟨k, w⟩ := e
    obtain ⟨name, names, rfl, hk, hrest⟩ := List.map_eq_cons_iff.1 hnames.symm
    obtain ⟨p, hp, h⟩ := Outcome.bind_eq_ok.1 ((Outcome.mapM_cons _ _ _).symm.trans hps)
    obtain ⟨ps, hbound, rfl⟩ := Outcome.map_eq_ok.1 h
    rw [Dict.column?_cons] at hv
    rw [List.zip_cons_cons, List.mem_cons]
    split at hv
    · rename_i hcolumn
      obtain rfl := Option.some.inj hv
      obtain rfl := Except.ok.inj (hp.symm.trans hq)
      exact .inl (Prod.ext (Option.some.inj (hcolumn.symm.trans hk.symm)) rfl)
    · exact .inr (ih hrest.symm hbound hv)

/-! ### The statement -/

/-- A row that can be saved: its columns have names, the key columns are among them, and its values can be bound. -/
structure Savable (t : Table) (row : Dict) (names : List String) (ps : List Param) : Prop where
  named : row.map (·.1.toText?) = names.map some
  bound : Param.ofValues (row.map (·.2)) = .ok ps
  keyed : ∀ column ∈ t.key, ∃ v, row.column? column = some v

/-- The assignments to columns, numbered from one. -/
def assignments (names : List String) : List String :=
  (names.zipIdx 1).map fun (name, n) => quoteName name ++ "=$" ++ toString n

/-- The comparisons of the key columns, numbered from a number on. -/
def comparisons (t : Table) (next : Nat) : List String :=
  (t.key.zipIdx next).map fun (column, n) => qualify t.name column ++ " = $" ++ toString n

/-- All comparisons of the key columns, in parentheses if there are several. -/
def ownKey (t : Table) (next : Nat) : String :=
  match t.key with
  | [_] => String.intercalate " AND " (t.comparisons next)
  | _ => "(" ++ String.intercalate " AND " (t.comparisons next) ++ ")"

/-- The text of the statement that saves a row with columns of these names. -/
def savingSql (t : Table) (names : List String) : String :=
  "UPDATE " ++ quoteName t.name ++ " SET " ++ String.intercalate "," (assignments names) ++ " WHERE " ++
    t.ownKey (names.length + 1) ++ " RETURNING *;"

theorem numbered_setText (names : List String) :
    numbered 1 (setText names) = String.intercalate "," (assignments names) := by
  have hfree : ∀ name, MarkFree (quoteName name ++ "=") := fun name => (markFree_quoteName name).append (by decide)
  have hnumbered := numbered_marked hfree (show MarkFree "," by decide) names 1
  simp only [String.append_assoc, assignments] at hnumbered ⊢
  exact hnumbered

theorem numbered_keyText (hne : t.key ≠ []) (next : Nat) : numbered next (t.keyText false 1) = t.ownKey next := by
  have hfree : ∀ column, MarkFree (qualify t.name column ++ " = ") :=
    fun column => (markFree_qualify t.name column).append (by decide)
  have hatoms : t.key.map t.keyAtom = t.key.map fun column => qualify t.name column ++ " = " ++ "?" :=
    List.map_congr_left fun column _ => by rw [keyAtom, String.append_assoc]; rfl
  have hclosed : Closed (String.intercalate " AND " (t.key.map t.keyAtom)) := by
    rw [hatoms]
    exact .intercalate (by decide) (closed_marked hfree t.key)
  have hcomparisons : numbered next (String.intercalate " AND " (t.key.map t.keyAtom)) =
      String.intercalate " AND " (t.comparisons next) := by
    rw [hatoms, numbered_marked hfree (by decide), comparisons]
    simp only [String.append_assoc]
    rfl
  rcases single_or_several hne with ⟨column, hcolumn⟩ | ⟨a, b, rest, hseveral⟩
  · simp only [keyText, ownKey, hcolumn]
    rwa [hcolumn, List.map_singleton, String.intercalate_singleton] at hcomparisons
  · simp only [keyText, ownKey, hseveral]
    rw [keyGroup, numbered_parens hclosed, hcomparisons]

/-! ### Building the statement -/

/-- What a row gives to a key column. -/
def keyEntry (row : Dict) (column : String) : Except Failure (Value × Value) :=
  match row.column? column with
  | some v => .ok (.text column, v)
  | none => .error (.absentColumn column)

theorem keyEntry_eq_ok {e : Value × Value} :
    keyEntry row column = .ok e ↔ ∃ v, row.column? column = some v ∧ (.text column, v) = e := by
  rw [keyEntry]
  cases row.column? column <;> simp

/-- The statement that saves a row. -/
def savingStatement (t : Table) (row : Dict) : Except Failure Statement := t.saving row >>= Update.statement

theorem writing_eq (t : Table) (record : Value) : t.writing record = t.rowOf record >>= t.savingStatement := rfl

theorem savingStatement_eq (t : Table) (row : Dict) : t.savingStatement row =
    t.key.mapM (keyEntry row) >>= fun key => t.keyCondition (.dict none (Dict.ofEntries key)) >>= fun c =>
      updateStatement t.name ⟨row, (some c).map .ok, (some (.plain "*")).map .ok⟩ := by
  show (t.key.mapM (keyEntry row) >>= _) >>= Update.statement = _
  cases t.key.mapM (keyEntry row) with
  | error e => rfl
  | ok key =>
    rw [Outcome.ok_bind, Outcome.ok_bind]
    show ((t.keyCondition (.dict none (Dict.ofEntries key))).map _) >>= Update.statement = _
    cases t.keyCondition (.dict none (Dict.ofEntries key)) <;> rfl

/-- The dictionary of a key has what the row has for the key columns. -/
theorem column?_key {key : List (Value × Value)} (h : t.key.mapM (keyEntry row) = .ok key) :
    ∀ column ∈ t.key, Dict.column? (Dict.ofEntries key) column = row.column? column ∧
      ∃ v, row.column? column = some v := by
  have hkeyed : ∀ column ∈ t.key, ∃ v, row.column? column = some v := by
    intro column hcolumn
    obtain ⟨e, he⟩ := Outcome.exists_mapM_eq_ok.1 ⟨key, h⟩ column hcolumn
    obtain ⟨v, hv, -⟩ := keyEntry_eq_ok.1 he
    exact ⟨v, hv⟩
  let value (column : String) : Value := (row.column? column).getD .null
  have hentry : ∀ column ∈ t.key, keyEntry row column = .ok (.text column, value column) := by
    intro column hcolumn
    obtain ⟨v, hv⟩ := hkeyed column hcolumn
    exact keyEntry_eq_ok.2 ⟨v, hv, by simp only [value, hv, Option.getD_some]⟩
  have hkey : key = t.key.map fun column => (.text column, value column) := by
    rw [Outcome.mapM_congr hentry] at h
    exact Except.ok.inj (h.symm.trans List.mapM_pure)
  intro column hcolumn
  obtain ⟨v, hv⟩ := hkeyed column hcolumn
  refine ⟨?_, v, hv⟩
  rw [hkey, Dict.column?_ofEntries, if_pos hcolumn]
  simp only [value, hv, Option.getD_some]

theorem savable_of_savingStatement (h : t.savingStatement row = .ok s) : ∃ names ps, t.Savable row names ps := by
  rw [savingStatement_eq] at h
  obtain ⟨key, hkey, h⟩ := Outcome.bind_eq_ok.1 h
  obtain ⟨c, -, h⟩ := Outcome.bind_eq_ok.1 h
  obtain ⟨-, names, ps, hnames, hps, -⟩ := (updateStatement_eq_ok t.name).1 h
  exact ⟨names, ps, mapM_columnName.1 hnames, hps, fun column hcolumn => (column?_key hkey column hcolumn).2⟩

theorem mem_values_of_column? (hv : row.column? column = some v) : v ∈ row.map (·.2) := by
  obtain ⟨e, he, rfl⟩ := Option.map_eq_some_iff.1 hv
  exact List.mem_map_of_mem (List.mem_of_find?_eq_some he)

/-- The condition on the own key of a row that can be saved. -/
theorem keyCondition_of_savable (hne : t.key ≠ []) (h : t.Savable row names ps)
    (hentries : ∀ column ∈ t.key, Dict.column? entries column = row.column? column) :
    ∃ c, t.keyCondition (.dict none entries) = .ok c ∧ c.Balanced ∧ c.text = t.keyText false 1 ∧
      List.Forall₂ (fun column q => (column, q) ∈ names.zip ps) t.key c.params := by
  have hvalue : ∀ column ∈ t.key, ∀ v, keyValue column (.dict none entries) = .ok v → row.column? column = some v := by
    intro column hcolumn v hv
    rw [← hentries column hcolumn, keyValue_dict.1 hv]
  have hcomplete : t.Complete (.dict none entries) :=
    ⟨none, entries, rfl, fun column hcolumn => hentries column hcolumn ▸ h.keyed column hcolumn⟩
  cases hc : t.keyCondition (.dict none entries) with
  | error e =>
    -- there is one key, it has all key columns, and its values are among those of the row
    exfalso
    rcases keyCondition_error hne hc with hempty | ⟨-, hk, hincomplete⟩ | ⟨hcolumn, hk, hnone⟩ | ⟨hk, hcolumn, hv, he⟩
    · cases hempty
    · exact hincomplete (List.mem_singleton.1 hk ▸ hcomplete)
    · obtain ⟨-, rfl⟩ := Value.dict.inj (List.mem_singleton.1 hk)
      obtain ⟨v, hv⟩ := h.keyed _ (hcolumn ▸ List.mem_singleton_self _)
      rw [← hentries _ (hcolumn ▸ List.mem_singleton_self _), hnone] at hv
      cases hv
    · obtain rfl := List.mem_singleton.1 hk
      have hmem := mem_values_of_column? (hvalue _ hcolumn _ hv)
      obtain ⟨p, hp⟩ := Outcome.exists_mapM_eq_ok.1 ⟨ps, h.bound⟩ _ hmem
      rw [he] at hp
      cases hp
  | ok c =>
    obtain ⟨hnamed, values, hvalues, hbound⟩ := keyCondition_eq_ok hc
    obtain ⟨pss, hpss, hparams⟩ := exists_keyParams hvalues hbound
    obtain ⟨qs, rfl⟩ := List.length_eq_one_iff.1 hpss.lengths.1
    obtain ⟨hqs, -⟩ := List.forall₂_cons.1 hpss
    refine ⟨c, rfl, hnamed.balanced, (keyCondition_ok hne hc).1, ?_⟩
    rw [hparams, List.flatten_singleton]
    have hqs' := (List.forall₂_and_left t.key qs).2 ⟨fun _ hcolumn => hcolumn, hqs⟩
    refine hqs'.imp ?_
    rintro column q ⟨hcolumn, v, hv, hq⟩
    exact mem_zip_of_column? h.named h.bound (hvalue column hcolumn v hv) hq

/-- There is a statement for every row that can be saved. -/
theorem savingStatement_of_savable (hne : t.key ≠ []) (h : t.Savable row names ps) :
    ∃ qs, List.Forall₂ (fun column q => (column, q) ∈ names.zip ps) t.key qs ∧
      t.savingStatement row = .ok ⟨t.savingSql names, ps ++ qs⟩ := by
  obtain ⟨key, hkey⟩ : ∃ key, t.key.mapM (keyEntry row) = .ok key := by
    refine Outcome.exists_mapM_eq_ok.2 fun column hcolumn => ?_
    obtain ⟨v, hv⟩ := h.keyed column hcolumn
    exact ⟨_, keyEntry_eq_ok.2 ⟨v, hv, rfl⟩⟩
  obtain ⟨c, hc, hbalanced, htext, hqs⟩ :=
    keyCondition_of_savable hne h fun column hcolumn => (column?_key hkey column hcolumn).1
  -- there is something to set, for the row has the key columns
  have hrow : row ≠ [] := by
    rintro rfl
    obtain ⟨column, hcolumn⟩ := List.exists_mem_of_ne_nil t.key hne
    obtain ⟨v, hv⟩ := h.keyed column hcolumn
    cases hv
  have hall : MarkFree "*" := by decide
  have hfilter : ∀ f ∈ some c, f.Balanced := fun f hf => Option.mem_some.1 hf ▸ hbalanced
  have hreturning : ∀ f ∈ some (Fragment.plain "*"), f.Balanced :=
    fun f hf => Option.mem_some.1 hf ▸ Fragment.balanced_plain.2 hall
  refine ⟨c.params, hqs, ?_⟩
  rw [savingStatement_eq, hkey, Outcome.ok_bind, hc, Outcome.ok_bind,
    updateStatement_of_supported t.name hrow (mapM_columnName.2 h.named) h.bound hfilter hreturning]
  have hlength : names.length = ps.length := length_names_eq (mapM_columnName.2 h.named) h.bound
  have hwhere : numbered (1 + ps.length) c.text = t.ownKey (names.length + 1) := by
    rw [htext, ← numbered_keyText hne, hlength, Int.add_comm]
    rfl
  simp [clauseText, clauseParams, numbered_setText, hwhere, hall.numbered_eq, Fragment.plain, savingSql,
    String.append_assoc]

/-! ### Failures -/

section Failures

variable {σ : Type} {conn : Connector σ} {record : Value} {e : Failure} {sql detail : String}

theorem KeyRefused.not_binding {key : Value} : ¬ t.KeyRefused key (.binding sql detail) := by
  intro h
  cases h with
  | unsupported _ _ _ he => exact ofValue_not_binding he

/-- Whatever is wrong with a row, marks and parameters of the statement agree. -/
theorem savingStatement_not_binding (hne : t.key ≠ []) (row : Dict) :
    t.savingStatement row ≠ .error (.binding sql detail) := by
  intro h
  rw [savingStatement_eq] at h
  cases hkey : t.key.mapM (keyEntry row) with
  | error e =>
    rw [hkey] at h
    obtain rfl := Except.error.inj h
    obtain ⟨column, -, hentry⟩ := Outcome.of_mapM_eq_error hkey
    rw [keyEntry] at hentry
    split at hentry <;> cases hentry
  | ok key =>
    rw [hkey, Outcome.ok_bind] at h
    cases hc : t.keyCondition (.dict none (Dict.ofEntries key)) with
    | error e =>
      rw [hc] at h
      obtain rfl := Except.error.inj h
      exact KeyRefused.not_binding (keyCondition_error hne hc)
    | ok c =>
      rw [hc, Outcome.ok_bind] at h
      have hall : MarkFree "*" := by decide
      exact updateStatement_not_binding t.name row
        (fun f hf => Option.mem_some.1 hf ▸ (keyCondition_eq_ok hc).1.balanced)
        (fun f hf => Option.mem_some.1 hf ▸ Fragment.balanced_plain.2 hall) sql detail h

/-- A failure of a statement, in building it or in running it. The declaration of a table is not to blame for it. -/
structure OfStatement (e : Failure) : Prop where
  family : e.family = .construction ∨ e.family = .execution
  declared : ∀ name detail, e ≠ .tableDefinition name detail

theorem ofStatement_binding : OfStatement (.binding sql detail) := ⟨.inr rfl, nofun⟩

theorem OfStatement.not_mapping (he : OfStatement e) : e.family ≠ .mapping := by
  rcases he.family with h | h <;> rw [h] <;> decide

theorem OfStatement.not_assign (he : OfStatement e) : e ≠ .wrongType ∧ e ≠ .absentAttribute := by
  constructor <;> rintro rfl <;> rcases he.family with h | h <;> cases h

theorem assignAt_ne_error (he : OfStatement e) (record k x : Value) : assignAt record k x ≠ .error e := by
  obtain ⟨htype, hattribute⟩ := he.not_assign
  unfold assignAt Value.assign
  repeat' split
  all_goals simp [htype.symm, hattribute.symm]

theorem assignAll_ne_error (he : OfStatement e) {record' : Value} : assignAll record row ≠ (record', some e) := by
  induction row generalizing record with
  | nil => simp [assignAll]
  | cons entry row ih =>
    rw [assignAll]
    split
    · exact ih
    · rename_i e' he'
      rintro ⟨⟩
      exact assignAt_ne_error he _ _ _ he'

/-- A failure that comes from outside: from the connector or the converters of a table. -/
inductive Raised (conn : Connector σ) (t : Table) (e : Failure) : Prop
  | connector {statement : Statement} {state : σ} : ((conn.run statement).run state).1 = .error e → Raised conn t e
  | reader {cells : Row} : t.read.run cells = .error e → Raised conn t e
  | writer {write : Writer} {v : Value} : t.write = some write → write v = .error e → Raised conn t e

theorem raised_of_rowOf (conn : Connector σ) (he : OfStatement e) {v : Value} (h : t.rowOf v = .error e) :
    t.Raised conn e := by
  unfold rowOf at h
  split at h
  · cases h
  · exact absurd (Except.error.inj h).symm (he.declared _ _)
  · exact .writer ‹_› h

theorem raised_of_mapRows (conn : Connector σ) (he : OfStatement e) {rows : List Row}
    (h : mapRows t.plan [] rows = .error e) : t.Raised conn e := by
  obtain ⟨row, -, hrow⟩ := Outcome.of_mapM_eq_error h
  rw [mapRow] at hrow
  cases hread : t.read.run (t.plan.visible row.base) with
  | ok v =>
    rw [Plan.run, show t.plan.read.run _ = _ from hread] at hrow
    cases hrow
  | error e' =>
    rw [Plan.run, show t.plan.read.run _ = _ from hread] at hrow
    have hrefusal : t.plan.refusal e' = e := Except.error.inj hrow
    unfold Plan.refusal at hrefusal
    split_ifs at hrefusal
    · exact .reader (hrefusal ▸ hread)
    · exact absurd (by rw [← hrefusal]; rfl) he.not_mapping
    · exact absurd (by rw [← hrefusal]; rfl) he.not_mapping
    · exact .reader (hrefusal ▸ hread)

/-- Refreshing a record fails over a statement only if a converter does. -/
theorem raised_of_refresh (conn : Connector σ) (he : OfStatement e) {a : Answer}
    (h : (t.refresh record a).outcome = .error e) : t.Raised conn e := by
  unfold refresh at h
  split at h
  · cases h
  · split at h
    · rename_i hrow
      exact raised_of_rowOf conn he (hrow.trans (congrArg Except.error (Except.error.inj h)))
    · split at h
      · cases h
      · rename_i hall
        exact absurd (hall.trans (by rw [Except.error.inj h])) (assignAll_ne_error he)

/-- Saving fails over a statement only if the one that writes the record does, or something outside. -/
theorem writing_of_save (he : OfStatement e) {conn : Connector σ} {state : σ}
    (h : ((t.save conn record).run state).1.outcome = .error e) : t.writing record = .error e ∨ t.Raised conn e := by
  rw [save_eq] at h
  cases hrun : (conn.store (t.writing record) t.plan).run state with
  | mk outcome state' =>
    cases outcome with
    | ok a =>
      rw [run_store_of_ok _ hrun] at h
      exact .inr (raised_of_refresh conn he h)
    | error e' =>
      rw [run_store_of_error _ hrun] at h
      obtain rfl := Except.error.inj h
      have houtcome := congrArg Prod.fst hrun
      cases hbuilt : t.writing record with
      | error e' =>
        rw [hbuilt] at houtcome
        obtain rfl := Except.error.inj houtcome
        exact .inl rfl
      | ok statement =>
        rw [hbuilt, Connector.run_store_of_ok] at houtcome
        cases hsent : ((conn.run statement).run state).1 with
        | error e' =>
          rw [hsent] at houtcome
          obtain rfl := Except.error.inj houtcome
          exact .inr (.connector hsent)
        | ok rows =>
          rw [hsent, Outcome.ok_bind] at houtcome
          exact .inr (raised_of_mapRows conn he (Outcome.map_eq_error.1 houtcome))

/-- Saving fails over marks only if something outside does. -/
theorem raised_of_save (hne : t.key ≠ []) {conn : Connector σ} {state : σ}
    (h : ((t.save conn record).run state).1.outcome = .error (.binding sql detail)) :
    t.Raised conn (.binding sql detail) := by
  rcases writing_of_save ofStatement_binding h with hwriting | hraised
  · rw [writing_eq] at hwriting
    cases hrow : t.rowOf record with
    | error e =>
      rw [hrow] at hwriting
      obtain rfl := Except.error.inj hwriting
      exact raised_of_rowOf conn ofStatement_binding hrow
    | ok row =>
      rw [hrow, Outcome.ok_bind] at hwriting
      exact absurd hwriting (savingStatement_not_binding hne row)
  · exact hraised

end Failures

/-! ### Saving -/

variable {σ : Type}

/-- What saving sends is the statement that writes the record, if there is one. -/
theorem run_save_traced (c : Connector σ) (t : Table) (record : Value) (state : σ) :
    ∃ calls, (t.save c.traced record).run (state, []) =
      (((t.save c record).run state).1, ((t.save c record).run state).2, calls) ∧
      calls.map Call.statement = (t.writing record).toOption.toList := by
  obtain ⟨calls, hrun, hcalls⟩ := c.run_store_traced (t.writing record) t.plan state
  refine ⟨calls, ?_, hcalls⟩
  rw [save_eq, save_eq]
  cases h : (c.store (t.writing record) t.plan).run state with
  | mk outcome state' =>
    rw [h] at hrun
    cases outcome with
    | error e => rw [run_store_of_error _ hrun, run_store_of_error _ h]
    | ok a => rw [run_store_of_ok _ hrun, run_store_of_ok _ h]

/-- What is finished can be spelled in every style. -/
theorem styled_of_savingStatement (h : t.savingStatement row = .ok s) (style : Style) :
    ∃ sql, styled s.sql style = .ok sql := by
  rw [savingStatement_eq] at h
  obtain ⟨key, -, h⟩ := Outcome.bind_eq_ok.1 h
  obtain ⟨c, -, h⟩ := Outcome.bind_eq_ok.1 h
  obtain ⟨-, names, ps, -, -, hfinish⟩ := (updateStatement_eq_ok t.name).1 h
  obtain ⟨hclosed, -, rfl⟩ := Statement.finish_eq_ok.1 hfinish
  obtain ⟨sql, hsql, -⟩ := read_styled_numbered hclosed style
  exact ⟨sql, hsql⟩

/-- **Saving by the own key.** For a row that can be saved, saving sends one statement: it sets the columns of the row
in their order, and its condition compares every key column with the value that the column is set to. For other rows it
sends nothing. The statement can be spelled in every style, and saving does not fail over marks unless something outside
does. -/
theorem saves_by_own_key (ht : t.check = .ok t) (c : Connector σ) (record : Value) (state : σ) :
    let ran := (t.save c.traced record).run (state, [])
    let sent := ran.2.2.map Call.statement
    (∀ row names ps, t.rowOf record = .ok row → t.Savable row names ps → ∃ qs,
      List.Forall₂ (fun column q => (column, q) ∈ names.zip ps) t.key qs ∧ sent = [⟨t.savingSql names, ps ++ qs⟩]) ∧
    (∀ row, t.rowOf record = .ok row → (∃ column ∈ t.key, row.column? column = none) ∨
      (∃ v ∈ row.map (·.2), ∃ e, Param.ofValue v = .error e) → sent = []) ∧
    (∀ statement ∈ sent, (∃ row names ps, t.rowOf record = .ok row ∧ t.Savable row names ps) ∧
      ∀ style, ∃ sql, styled statement.sql style = .ok sql) ∧
    ∀ sql detail, ran.1.outcome = .error (.binding sql detail) → t.Raised c (.binding sql detail) := by
  intro ran sent
  have hne := (columns_of_check ht).1
  obtain ⟨calls, hrun, hcalls⟩ := run_save_traced c t record state
  have hsent : sent = (t.rowOf record >>= t.savingStatement).toOption.toList := by
    rw [← writing_eq, ← hcalls]
    exact congrArg (fun r => r.2.2.map Call.statement) hrun
  have houtcome : ran.1 = ((t.save c record).run state).1 := congrArg Prod.fst hrun
  refine ⟨fun row names ps hrow h => ?_, fun row hrow h => ?_, fun statement hmem => ?_, fun sql detail h => ?_⟩
  · obtain ⟨qs, hqs, hstatement⟩ := savingStatement_of_savable hne h
    refine ⟨qs, hqs, ?_⟩
    rw [hsent, hrow, Outcome.ok_bind, hstatement]
    rfl
  · rw [hsent, hrow, Outcome.ok_bind]
    cases hstatement : t.savingStatement row with
    | error e => rfl
    | ok s =>
      obtain ⟨names, ps, hsavable⟩ := savable_of_savingStatement hstatement
      exfalso
      rcases h with ⟨column, hcolumn, hnone⟩ | ⟨v, hv, e, he⟩
      · obtain ⟨v, hv⟩ := hsavable.keyed column hcolumn
        rw [hnone] at hv
        cases hv
      · obtain ⟨p, hp⟩ := Outcome.exists_mapM_eq_ok.1 ⟨ps, hsavable.bound⟩ v hv
        rw [he] at hp
        cases hp
  · rw [hsent, Option.mem_toList] at hmem
    cases hwriting : t.rowOf record >>= t.savingStatement with
    | error e =>
      rw [hwriting] at hmem
      cases hmem
    | ok s =>
      rw [hwriting] at hmem
      obtain rfl := Option.some.inj hmem
      obtain ⟨row, hrow, hstatement⟩ := Outcome.bind_eq_ok.1 hwriting
      obtain ⟨names, ps, hsavable⟩ := savable_of_savingStatement hstatement
      exact ⟨⟨row, names, ps, hrow, hsavable⟩, styled_of_savingStatement hstatement⟩
  · rw [houtcome] at h
    exact raised_of_save hne h

/-- A line of an order, with its number before the order and an item between them. -/
theorem saves_by_own_key_orderLine :
    let row : Dict := [(.text "no", .integer 1), (.text "item", .text "x"), (.text "order", .text "A")]
    let ran := (orderLines.save (Relation.answering []).traced (.dict none row)).run ((), [])
    orderLines.check = .ok orderLines ∧
      ran.2.2.map Call.statement = [⟨"UPDATE \"lines\" SET \"no\"=$1,\"item\"=$2,\"order\"=$3 WHERE " ++
          "(\"lines\".\"order\" = $4 AND \"lines\".\"no\" = $5) RETURNING *;",
        [⟨.integer, .integer 1⟩, ⟨.text, .text "x"⟩, ⟨.text, .text "A"⟩, ⟨.text, .text "A"⟩,
          ⟨.integer, .integer 1⟩]⟩] := by
  intro row ran
  have hcheck : orderLines.check = .ok orderLines := by rfl
  have hsavable : orderLines.Savable row ["no", "item", "order"]
      [⟨.integer, .integer 1⟩, ⟨.text, .text "x"⟩, ⟨.text, .text "A"⟩] := by
    refine ⟨rfl, rfl, ?_⟩
    simp [orderLines, row, Dict.column?_cons, Value.toText?]
  obtain ⟨hsaved, -⟩ := saves_by_own_key hcheck (Relation.answering []) (.dict none row) ()
  obtain ⟨qs, hqs, hsent⟩ := hsaved row _ _ rfl hsavable
  obtain rfl : qs = [⟨.text, .text "A"⟩, ⟨.integer, .integer 1⟩] := by
    obtain ⟨q, q', rfl⟩ := List.length_eq_two.1 hqs.length_eq.symm
    simpa [orderLines] using hqs
  refine ⟨hcheck, hsent.trans ?_⟩
  rw [List.singleton_inj, Statement.mk.injEq]
  exact ⟨by decide +kernel, rfl⟩

end Table

end RecordSql
