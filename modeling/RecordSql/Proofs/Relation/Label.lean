import Mathlib.Data.List.Nodup
import RecordSql.Proofs.Relation.Joined

/-!
# Labels of joined columns

A query selects the columns of a joined relation under labels, and the record of the relation is read from what stands
behind the label of the relation. What it sees are its own columns and nothing else; but whether there is a record is
told by all columns behind the label, and these can be those of another relation as well, if the field of one of the two
is that of the other with a dot and more behind it.
-/

namespace RecordSql

/-! ### What a table makes of cells -/

namespace Table

variable {t : Table}

/-- The record that the reader makes of cells. -/
def recordOf (t : Table) (cells : Row) : Except Failure Value := (t.read.run cells).mapError t.plan.refusal

/-- A table whose declaration is in order has columns, and none of them twice. -/
theorem columns_of_fault? (h : t.fault? = none) : t.columns ≠ [] ∧ t.columns.Nodup := by
  unfold fault? at h
  simp only at h
  split at h
  · cases h
  · split at h
    · cases h
    · rename_i hne
      split at h
      · cases h
      · rename_i hn
        exact ⟨by simpa using hne, by simpa using hn⟩

/-- The reader sees the columns of the table that the row has, in their order. -/
theorem run_plan (h : t.fault? = none) (row : Row) : t.plan.run row = t.recordOf (row.cells id t.columns) := by
  obtain ⟨hne, hn⟩ := columns_of_fault? h
  rw [Plan.run, Plan.visible_of_columns hne, plan, Row.pick_eq_cells row hn]
  rfl

end Table

/-! ### Columns of a relation -/

namespace Relation

variable {t : Table} {r s : Relation} {rs : List Relation} {row row' : Row} {name : String}

/-- The labels that a query selects the columns of the target under. -/
def labels (r : Relation) : List String := r.target.columns.map r.columnLabel

/-- The columns of the target in a row, under their names. -/
def cells (r : Relation) (row : Row) : Row := row.cells r.columnLabel r.target.columns

/-- Whether all columns of the target are null in a row. -/
def isNullIn (r : Relation) (row : Row) : Bool := (r.cells row).all fun (_, v) => v.isNull

/-- The record of the relation by its own columns. -/
def recordIn (r : Relation) (row : Row) : Except Failure Value :=
  if r.isNullIn row then .ok .null else r.target.recordOf (r.cells row)

/-- Behind the label of the relation there is a column of another relation, and it is not null. -/
def Strays (r : Relation) (rs : List Relation) (row : Row) : Prop :=
  ∃ s ∈ rs, ∃ name ∈ s.labels, name ∉ r.labels ∧ (∃ rest, name = r.joinedPlan.label ++ rest) ∧
    ∃ v, row.get? name = some v ∧ v.isNull = false

/-- The field of one relation is that of another with a dot and maybe more behind it. -/
def Extends (r s : Relation) : Prop := ∃ rest, r.field = s.field ++ "." ++ rest

theorem get?_labelled (r : Relation) (row : Row) (column : String) :
    (row.labelled r.joinedPlan.label).get? column = row.get? (r.columnLabel column) :=
  Row.get?_labelled row _ column

/-- Labels of two relations begin alike only if their fields do. -/
theorem field_of_label (h : name ∈ s.labels) {rest : String} (hr : name = r.joinedPlan.label ++ rest) :
    s.field = r.field ∨ s.Extends r ∨ r.Extends s := by
  obtain ⟨column, -, rfl⟩ := List.mem_map.1 h
  have hfields : s.field.toList ++ ('.' :: column.toList) = r.field.toList ++ ('.' :: rest.toList) := by
    have hall := congrArg String.toList hr
    simpa [columnLabel, joinedName, joinedPlan] using hall
  rcases List.append_eq_append_iff.1 hfields with ⟨more, hfield, hmore⟩ | ⟨more, hfield, hmore⟩
  · cases more with
    | nil => exact .inl (String.toList_inj.1 (by simpa using hfield.symm))
    | cons c more =>
      obtain ⟨rfl, -⟩ := List.cons.inj hmore
      exact .inr (.inr ⟨String.ofList more, String.toList_inj.1 (by simp [hfield])⟩)
  · cases more with
    | nil => exact .inl (String.toList_inj.1 (by simpa using hfield))
    | cons c more =>
      obtain ⟨rfl, -⟩ := List.cons.inj hmore
      exact .inr (.inl ⟨String.ofList more, String.toList_inj.1 (by simp [hfield])⟩)

/-- With distinct fields, a column strays only between relations of which one extends the other. -/
theorem extends_of_strays (hn : (rs.map field).Nodup) (hr : r ∈ rs) (h : r.Strays rs row) :
    ∃ s ∈ rs, s.Extends r ∨ r.Extends s := by
  obtain ⟨s, hs, name, hname, hnot, ⟨rest, hrest⟩, -⟩ := h
  refine ⟨s, hs, (field_of_label hname hrest).resolve_left fun hfield => hnot ?_⟩
  exact List.inj_on_of_nodup_map hn hs hr hfield ▸ hname

end Relation

/-! ### Rows of a query with joined relations -/

/-- A row of a query: its columns are those of the table, the one that batches are grouped by, and the labels of the
joined relations, each of them once and as far as it has them. -/
structure Row.LaidOut (t : Table) (rs : List Relation) (row : Row) : Prop where
  once : (row.map (·.1)).Nodup
  known : ∀ e ∈ row, e.1 ∈ t.columns ∨ e.1 = relationKey ∨ ∃ r ∈ rs, e.1 ∈ r.labels

section LaidOut

variable {t : Table} {r : Relation} {rs : List Relation} {row row' : Row}

theorem Row.LaidOut.perm (h : row.LaidOut t rs) (hp : row.Perm row') : Row.LaidOut t rs row' :=
  ⟨(hp.map _).nodup_iff.1 h.once, fun e he => h.known e (hp.mem_iff.2 he)⟩

namespace Relation

/-- All is null behind the label of a relation exactly if its own columns are and no column strays there. -/
theorem all_labelled_iff (hu : ∀ c ∈ t.columns, Unreserved c) (h : row.LaidOut t rs) :
    (row.labelled r.joinedPlan.label).all (fun (_, v) => v.isNull) = true ↔
      r.isNullIn row = true ∧ ¬ r.Strays rs row := by
  rw [isNullIn, List.all_eq_true, List.all_eq_true]
  constructor
  · intro hall
    refine ⟨fun ⟨column, v⟩ he => hall (column, v) ((Row.mem_labelled h.once).2 (Row.mem_cells.1 he).2), ?_⟩
    rintro ⟨s, -, name, -, -, ⟨rest, rfl⟩, v, hv, hnull⟩
    have hv' : v.isNull = true := hall (rest, v) ((Row.mem_labelled h.once).2 hv)
    rw [hnull] at hv'
    cases hv'
  · rintro ⟨hown, hstray⟩ ⟨rest, v⟩ he
    have hget := (Row.mem_labelled h.once).1 he
    have hreserved : afterLabel? relationsLabel (r.joinedPlan.label ++ rest) ≠ none := by
      rw [show r.joinedPlan.label ++ rest = r.columnLabel rest from rfl, afterLabel?_columnLabel]
      exact Option.some_ne_none _
    rcases h.known _ ((Row.get?_eq_some h.once).1 hget) with hc | hkey | ⟨s, hs, hlabel⟩
    · exact absurd (hu _ hc).1 hreserved
    · rw [show r.joinedPlan.label ++ rest = relationKey from hkey] at hreserved
      exact absurd (by decide) hreserved
    · by_cases hr' : r.joinedPlan.label ++ rest ∈ r.labels
      · obtain ⟨column, hcolumn, hname⟩ := List.mem_map.1 hr'
        exact hown (column, v) (Row.mem_cells.2 ⟨hcolumn, hname ▸ hget⟩)
      · cases hnull : v.isNull with
        | true => exact hnull
        | false => exact absurd ⟨s, hs, _, hlabel, hr', ⟨rest, rfl⟩, v, hget, hnull⟩ hstray

/-- What a relation sees are its own columns. -/
theorem run_labelled (hv : r.target.fault? = none) (row : Row) :
    r.target.plan.run (row.labelled r.joinedPlan.label) = r.target.recordOf (r.cells row) := by
  have hcells : (row.labelled r.joinedPlan.label).cells id r.target.columns = r.cells row :=
    Row.cells_congr fun c _ => r.get?_labelled row c
  rw [Table.run_plan hv, hcells]

variable (hu : ∀ c ∈ t.columns, Unreserved c) (hv : r.target.fault? = none) (h : row.LaidOut t rs)

include hu hv h

theorem run_of_not_strays (hstray : ¬ r.Strays rs row) : r.joinedPlan.run row = r.recordIn row := by
  rw [JoinedPlan.run, recordIn, ← run_labelled hv]
  exact if_congr ((all_labelled_iff hu h).trans (and_iff_left hstray)) rfl rfl

theorem run_of_strays (hstray : r.Strays rs row) : r.joinedPlan.run row = r.target.recordOf (r.cells row) := by
  rw [JoinedPlan.run, ← run_labelled hv]
  exact if_neg fun hall => ((all_labelled_iff hu h).1 hall).2 hstray

/-- A relation has the record that its own columns tell, unless they are null and a column strays behind its label: then
its reader is given the nulls. -/
theorem run_eq_recordIn_iff : r.joinedPlan.run row = r.recordIn row ↔
    (r.isNullIn row = true → r.Strays rs row → r.target.recordOf (r.cells row) = .ok .null) := by
  by_cases hstray : r.Strays rs row
  · rw [run_of_strays hu hv h hstray, recordIn]
    split
    · rename_i hnull
      exact ⟨fun he _ _ => he, fun he => he hnull hstray⟩
    · rename_i hnull
      exact ⟨fun _ hnull' => absurd hnull' hnull, fun _ => rfl⟩
  · exact ⟨fun _ _ hstray' => absurd hstray' hstray, fun _ => run_of_not_strays hu hv h hstray⟩

omit hu hv h

/-- What the fields are set to, one after the other: with distinct fields, each has what its relation gives it. -/
theorem fieldOf?_of_fold {record record' : Value} (hn : (rs.map field).Nodup) (hk : record.keepsFields)
    (hf : rs.foldlM (fun record r => r.joinedPlan.run row >>= fun x => record.assign r.field x) record = .ok record') :
    record'.keepsFields ∧ (∀ r ∈ rs, ∃ x, r.joinedPlan.run row = .ok x ∧ record'.fieldOf? r.field = some x) ∧
      ∀ name ∉ rs.map field, record'.fieldOf? name = record.fieldOf? name := by
  induction rs generalizing record with
  | nil =>
    obtain rfl := Except.ok.inj hf
    exact ⟨hk, by simp, fun _ _ => rfl⟩
  | cons r rs ih =>
    rw [List.foldlM_cons] at hf
    obtain ⟨next, hnext, hf⟩ := Outcome.bind_eq_ok.1 hf
    obtain ⟨x, hx, hassign⟩ := Outcome.bind_eq_ok.1 hnext
    obtain ⟨hnew, hn⟩ := List.nodup_cons.1 hn
    have hset := Value.fieldOf?_of_assign hassign hk
    obtain ⟨hkeeps, hfields, hothers⟩ := ih hn (Value.keepsFields_assign hassign ▸ hk) hf
    refine ⟨hkeeps, List.forall_mem_cons.2 ⟨⟨x, hx, ?_⟩, hfields⟩, fun name hname => ?_⟩
    · rw [hothers _ hnew, hset, if_pos rfl]
    · rw [List.map_cons, List.mem_cons, not_or] at hname
      rw [hothers _ hname.2, hset, if_neg hname.1]

theorem mapRow_eq (ht : t.fault? = none) (hu : ∀ c ∈ t.columns, Unreserved c) (rs : List Relation) (row : Row) :
    mapRow t.plan (rs.map joinedPlan) row = t.recordOf (row.cells id t.columns) >>= fun record =>
      rs.foldlM (fun record r => r.joinedPlan.run row >>= fun x => record.assign r.field x) record := by
  have hroot : t.plan.run row.base = t.recordOf (row.cells id t.columns) := by
    have hcells : row.base.cells id t.columns = row.cells id t.columns :=
      Row.cells_congr fun c hc => Row.get?_base (hu c hc) row
    rw [Table.run_plan ht, hcells]
  rw [mapRow, hroot]
  exact bind_congr fun record => List.foldlM_map

theorem strays_perm (h : row.LaidOut t rs) (hp : row.Perm row') : r.Strays rs row ↔ r.Strays rs row' := by
  simp only [Strays, Row.get?_perm h.once hp]

theorem run_congr (hu : ∀ c ∈ t.columns, Unreserved c) (hv : r.target.fault? = none) (h : row.LaidOut t rs)
    (h' : Row.LaidOut t rs row') (hstray : r.Strays rs row ↔ r.Strays rs row')
    (hlabels : ∀ name ∈ r.labels, row.get? name = row'.get? name) :
    r.joinedPlan.run row = r.joinedPlan.run row' := by
  have hcells : r.cells row = r.cells row' := Row.cells_congr fun c hc => hlabels _ (List.mem_map_of_mem hc)
  by_cases hs : r.Strays rs row
  · rw [run_of_strays hu hv h hs, run_of_strays hu hv h' (hstray.1 hs), hcells]
  · rw [run_of_not_strays hu hv h hs, run_of_not_strays hu hv h' (mt hstray.2 hs), recordIn, recordIn, isNullIn,
      isNullIn, hcells]

end Relation

/-- What is made of a row of a query with joined relations. -/
structure Row.ReadBack (t : Table) (rs : List Relation) (row : Row) : Prop where
  /-- The record is made of the columns of the table, in their order; then the fields are set, one after the other. -/
  mapped : mapRow t.plan (rs.map Relation.joinedPlan) row = do
    let record ← t.recordOf (row.cells id t.columns)
    rs.foldlM (fun record r => do record.assign r.field (← r.joinedPlan.run row)) record
  fields : ∀ record record', t.recordOf (row.cells id t.columns) = .ok record → record.keepsFields →
    mapRow t.plan (rs.map Relation.joinedPlan) row = .ok record' →
    ∀ r ∈ rs, ∃ x, r.joinedPlan.run row = .ok x ∧ record'.fieldOf? r.field = some x
  /-- A relation has the record that its own columns tell, unless these are null and a column of another relation that
  is not null stands behind its label. -/
  own_iff : ∀ r ∈ rs, r.joinedPlan.run row = r.recordIn row ↔
    (r.isNullIn row = true → r.Strays rs row → r.target.recordOf (r.cells row) = .ok .null)
  strayed : ∀ r ∈ rs, r.Strays rs row → r.joinedPlan.run row = r.target.recordOf (r.cells row)
  extended : ∀ r ∈ rs, r.Strays rs row → ∃ s ∈ rs, s.Extends r ∨ r.Extends s
  apart : ∀ r ∈ rs, (∀ s ∈ rs, ¬ s.Extends r ∧ ¬ r.Extends s) → r.joinedPlan.run row = r.recordIn row
  alike : ∀ row', Row.LaidOut t rs row' → ∀ r ∈ rs, (r.Strays rs row ↔ r.Strays rs row') →
    (∀ name ∈ r.labels, row.get? name = row'.get? name) → r.joinedPlan.run row = r.joinedPlan.run row'
  anyOrder : ∀ row', row.Perm row' →
    mapRow t.plan (rs.map Relation.joinedPlan) row' = mapRow t.plan (rs.map Relation.joinedPlan) row

/-- **Reading joined columns back.** For a table and relations in order, with distinct fields and no column of the table
that is reserved: whatever a row has in the columns of the table and under the labels of the relations, the record of
the table is made of its own columns, and that of a relation of the columns under its own labels. Only whether a
relation has a record can be told by columns that are not its own, and these are of a relation whose field extends the
other. -/
theorem Row.LaidOut.readBack (ht : t.fault? = none) (hu : ∀ c ∈ t.columns, Unreserved c)
    (hv : ∀ r ∈ rs, r.target.fault? = none) (hn : (rs.map Relation.field).Nodup) (h : row.LaidOut t rs) :
    row.ReadBack t rs where
  mapped := Relation.mapRow_eq ht hu rs row
  fields record record' hrecord hk hmap := by
    rw [Relation.mapRow_eq ht hu, hrecord] at hmap
    exact (Relation.fieldOf?_of_fold hn hk hmap).2.1
  own_iff r hr := Relation.run_eq_recordIn_iff hu (hv r hr) h
  strayed r hr := Relation.run_of_strays hu (hv r hr) h
  extended r hr := Relation.extends_of_strays hn hr
  apart r hr hapart := Relation.run_of_not_strays hu (hv r hr) h fun hstray => by
    obtain ⟨s, hs, hext⟩ := Relation.extends_of_strays hn hr hstray
    exact hext.elim (hapart s hs).1 (hapart s hs).2
  alike row' h' r hr := Relation.run_congr hu (hv r hr) h h'
  anyOrder row' hp := by
    have hget := Row.get?_perm h.once hp
    have hroot : Row.cells row' id t.columns = row.cells id t.columns := Row.cells_congr fun c _ => (hget c).symm
    rw [Relation.mapRow_eq ht hu, Relation.mapRow_eq ht hu, hroot]
    refine bind_congr fun record => Outcome.foldlM_congr fun r hr next => ?_
    rw [Relation.run_congr hu (hv r hr) h (h.perm hp) (Relation.strays_perm h hp) fun name _ => hget name]

end LaidOut

/-! ### Posts and people -/

namespace Relation

def posts : Table := ⟨"posts", ["id"], ["id", "writer", "editor"], ["id"], .copy, none⟩

def people : Table := ⟨"people", ["id"], ["id", "name.last"], ["id"], .copy, none⟩

/-- Somebody a post has in a column. -/
def personOf (field column : String) : Relation :=
  ⟨field, .one, .direct, posts, people, column, "id", ⟨none, none, none⟩⟩

/-- A post with an editor and without a writer, whose field the other begins with. -/
def editedRow : Row :=
  [("relations.author2.id", .integer 7), ("id", .integer 5), ("relations.author.name.last", .null),
    ("relations.author.id", .null), (relationKey, .integer 5), ("relations.author2.name.last", .text "Ann")]

theorem laidOut_editedRow : editedRow.LaidOut posts [personOf "author" "writer", personOf "author2" "editor"] where
  once := by decide
  known := by decide

theorem readBack_editedRow : editedRow.ReadBack posts [personOf "author" "writer", personOf "author2" "editor"] ∧
    (personOf "author" "writer").joinedPlan.run editedRow = .ok .null ∧
    (personOf "author2" "editor").joinedPlan.run editedRow =
      .ok (Row.toValue [("id", .integer 7), ("name.last", .text "Ann")]) :=
  ⟨laidOut_editedRow.readBack rfl (by decide) (by decide) (by decide), rfl, rfl⟩

/-- The same, but the field of the editor is that of the writer with a dot. -/
def dottedRow : Row :=
  [("id", .integer 5), ("writer", .null), ("editor", .integer 7), ("relations.a.id", .null),
    ("relations.a.name.last", .null), ("relations.a..id", .integer 7), ("relations.a..name.last", .text "Ann")]

/-- The editor behind the label of the writer makes a writer of nulls. -/
theorem phantom_writer :
    let writer := personOf "a" "writer"
    let editor := personOf "a." "editor"
    [writer.field, editor.field].Nodup ∧
    (∀ r ∈ [writer, editor], ∀ s ∈ [writer, editor], ∀ rest, rest ≠ "" → s.field ≠ r.field ++ "." ++ rest) ∧
    dottedRow.LaidOut posts [writer, editor] ∧
    (∀ r ∈ [writer, editor], ∀ name ∈ r.labels, (dottedRow.get? name).isSome) ∧
    writer.isNullIn dottedRow = true ∧
    writer.joinedPlan.run dottedRow = .ok (Row.toValue [("id", .null), ("name.last", .null)]) := by
  refine ⟨by decide, ?_, ⟨by decide, by decide⟩, by decide, rfl, rfl⟩
  intro r hr s hs rest hne heq
  have hlength : s.field.toList.length = r.field.toList.length + 1 + rest.toList.length := by
    rw [heq, String.toList_append, String.toList_append, List.length_append, List.length_append]
    rfl
  have hrest := List.length_pos_of_ne_nil (mt String.toList_eq_nil_iff.1 hne)
  have hleast : ∀ r ∈ [personOf "a" "writer", personOf "a." "editor"], 1 ≤ r.field.toList.length := by decide
  have hmost : ∀ r ∈ [personOf "a" "writer", personOf "a." "editor"], r.field.toList.length ≤ 2 := by decide
  have hr := hleast r hr
  have hs := hmost s hs
  omega

end Relation

end RecordSql
