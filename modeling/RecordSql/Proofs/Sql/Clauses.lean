import RecordSql.Proofs.Sql.ConditionTree

/-!
# Clauses of statements

A statement made of balanced clauses is always finished. Its parameters are those of its clauses in clause order, and
the marks of a clause are numbered on from the parameters of the clauses before it, so that a clause that is absent
shifts nothing.

* `selectStatement_of_balanced`, `insertStatement_of_supported`, `updateStatement_of_supported`: the statement, in full.
* `insertStatement_not_binding`, `updateStatement_not_binding`: what else may go wrong, marks and parameters agree.
* `balanced_building`: the whole of it, for conditions, joined fragments and the three kinds of statements.
-/

namespace RecordSql

open Fragment

/-- The parameters of a clause; an absent one has none. -/
def clauseParams (c : Option Fragment) : List Param := c.elim [] params

/-- A clause behind its keyword, its marks numbered from `start`; nothing if it is absent. -/
def clauseText (keyword : String) (start : Int) (c : Option Fragment) : String :=
  c.elim "" fun f => keyword ++ numbered start f.text

/-- Joins behind a blank each, their marks numbered on from `start`. -/
def joinsText : Int → List Fragment → String
  | _, [] => ""
  | start, f :: fs => " " ++ numbered start f.text ++ joinsText (start + f.params.length) fs

/-- The fragments that a clause adds to a statement. -/
def clauseParts (keyword : String) (c : Option Fragment) : List Fragment :=
  c.elim [] fun f => [.plain keyword, f]

section Clause

variable {keyword : String} {c : Option Fragment}

theorem clause_map_ok (keyword : String) (c : Option Fragment) :
    clause keyword (c.map .ok) = .ok (clauseParts keyword c) := by
  cases c <;> rfl

theorem balanced_clauseParts (hk : MarkFree keyword) (hc : ∀ f ∈ c, f.Balanced) :
    ∀ f ∈ clauseParts keyword c, f.Balanced := by
  cases c with
  | none => simp [clauseParts]
  | some g =>
    intro f hf
    rcases List.mem_cons.1 hf with rfl | hf
    · exact balanced_plain.2 hk
    · obtain rfl := List.mem_singleton.1 hf
      exact hc f rfl

theorem params_clauseParts (keyword : String) (c : Option Fragment) :
    (clauseParts keyword c).flatMap params = clauseParams c := by
  cases c <;> simp [clauseParts, clauseParams]

theorem numberedOn_clauseParts (hk : MarkFree keyword) (c : Option Fragment) (start : Int) :
    numberedOn start (clauseParts keyword c) = clauseText keyword start c := by
  cases c with
  | none => rfl
  | some f => simp [clauseParts, clauseText, numberedOn, hk.numbered_eq]

theorem numberedOn_plain {text : String} (h : MarkFree text) (start : Int) : numberedOn start [plain text] = text := by
  simp [numberedOn, h.numbered_eq]

theorem numberedOn_joins (joins : List Fragment) (start : Int) :
    numberedOn start (joins.flatMap fun f => [plain " ", f]) = joinsText start joins := by
  induction joins generalizing start with
  | nil => rfl
  | cons f fs ih =>
    have hb : MarkFree " " := by decide
    simp [numberedOn, joinsText, hb.numbered_eq, ih, String.append_assoc]

theorem params_joins (joins : List Fragment) :
    (joins.flatMap fun f => [plain " ", f]).flatMap params = joins.flatMap params := by
  induction joins with
  | nil => rfl
  | cons f fs ih => simp [ih]

end Clause

/-- Balanced fragments put together are finished, each numbered on from those before it. -/
theorem finish_join {fs : List Fragment} (h : ∀ f ∈ fs, f.Balanced) :
    Statement.finish (join "" fs) = .ok ⟨numberedOn 1 fs ++ ";", fs.flatMap params⟩ := by
  rw [Statement.finish_of_balanced (balanced_join (by decide) h), numbered_join_empty h]
  rfl

/-! ### Queries -/

/-- The fragments of a query in front of its joins. -/
def selectHead (table : String) (columns : Option Fragment) (items : List String) : List Fragment :=
  [.plain "SELECT ", columns.getD (.plain (quoteName table ++ ".*"))]
    ++ (if items.isEmpty then [] else [.plain (", " ++ String.intercalate ", " items)])
    ++ [.plain (" FROM " ++ quoteName table)]

/-- The fragments of a query. -/
def selectParts (table : String) (columns join filter : Option Fragment) (items : List String)
    (joins : List Fragment) : List Fragment :=
  selectHead table columns items ++ clauseParts " " join ++ joins.flatMap (fun f => [.plain " ", f])
    ++ clauseParts " WHERE " filter

section Select

variable (table : String) {columns join filter : Option Fragment} {items : List String} {joins : List Fragment}

theorem markFree_items (hi : ∀ t ∈ items, MarkFree t) : MarkFree (", " ++ String.intercalate ", " items) :=
  MarkFree.append (by decide) (MarkFree.intercalate (by decide) hi)

theorem markFree_from : MarkFree (" FROM " ++ quoteName table) :=
  MarkFree.append (by decide) (markFree_quoteName table)

theorem balanced_selectHead (hc : ∀ f ∈ columns, f.Balanced) (hi : ∀ t ∈ items, MarkFree t) :
    ∀ f ∈ selectHead table columns items, f.Balanced := by
  simp only [selectHead, List.forall_mem_append, List.forall_mem_cons, List.not_mem_nil, false_implies, implies_true,
    and_true, balanced_plain]
  refine ⟨⟨⟨by decide, ?_⟩, ?_⟩, markFree_from table⟩
  · cases columns with
    | none => exact (markFree_quoteName table).append (by decide)
    | some f => exact hc f rfl
  · split
    · simp
    · simpa [balanced_plain] using markFree_items hi

theorem params_selectHead (columns : Option Fragment) (items : List String) :
    (selectHead table columns items).flatMap params = clauseParams columns := by
  cases columns <;> cases items <;> simp [selectHead, clauseParams]

theorem numberedOn_selectHead (columns : Option Fragment) (hi : ∀ t ∈ items, MarkFree t) :
    numberedOn 1 (selectHead table columns items) =
      "SELECT " ++ columns.elim (quoteName table ++ ".*") (fun f => numbered 1 f.text)
        ++ (if items.isEmpty then "" else ", " ++ String.intercalate ", " items) ++ " FROM " ++ quoteName table := by
  have hall : MarkFree (quoteName table ++ ".*") := (markFree_quoteName table).append (by decide)
  have hselect : MarkFree "SELECT " := by decide
  have hlist : ∀ start,
      numberedOn start (if items.isEmpty then [] else [.plain (", " ++ String.intercalate ", " items)]) =
        if items.isEmpty then "" else ", " ++ String.intercalate ", " items := by
    intro start
    split
    · rfl
    · exact numberedOn_plain (markFree_items hi) start
  rw [selectHead, numberedOn_append, numberedOn_append, hlist, numberedOn_plain (markFree_from table)]
  cases columns <;> simp [numberedOn, hselect.numbered_eq, hall.numbered_eq, String.append_assoc]

/-- What a query is finished from. -/
theorem selectStatement_eq (columns join filter : Option Fragment) (items : List String) (joins : List Fragment) :
    selectStatement table ⟨columns.map .ok, join.map .ok, filter.map .ok⟩ items joins =
      Statement.finish (Fragment.join "" (selectParts table columns join filter items joins)) := by
  have hd : (columns.map Except.ok).getD (.ok (plain (quoteName table ++ ".*")) : Clause)
      = .ok (columns.getD (.plain (quoteName table ++ ".*"))) := by
    cases columns <;> rfl
  rw [selectStatement]
  simp only [hd, clause_map_ok, Outcome.ok_bind]
  rfl

theorem balanced_selectParts (hc : ∀ f ∈ columns, f.Balanced) (hj : ∀ f ∈ join, f.Balanced)
    (hf : ∀ f ∈ filter, f.Balanced) (hi : ∀ t ∈ items, MarkFree t) (hjs : ∀ f ∈ joins, f.Balanced) :
    ∀ f ∈ selectParts table columns join filter items joins, f.Balanced := by
  simp only [selectParts, List.forall_mem_append]
  refine ⟨⟨⟨balanced_selectHead table hc hi, balanced_clauseParts (by decide) hj⟩, fun f hf => ?_⟩,
    balanced_clauseParts (by decide) hf⟩
  obtain ⟨g, hg, hfg⟩ := List.mem_flatMap.1 hf
  rcases List.mem_cons.1 hfg with rfl | hfg
  · exact balanced_plain.2 (by decide)
  · rw [List.mem_singleton.1 hfg]
    exact hjs g hg

theorem selectStatement_of_balanced (hc : ∀ f ∈ columns, f.Balanced) (hj : ∀ f ∈ join, f.Balanced)
    (hf : ∀ f ∈ filter, f.Balanced) (hi : ∀ t ∈ items, MarkFree t) (hjs : ∀ f ∈ joins, f.Balanced) :
    selectStatement table ⟨columns.map .ok, join.map .ok, filter.map .ok⟩ items joins = .ok
      ⟨"SELECT " ++ columns.elim (quoteName table ++ ".*") (fun f => numbered 1 f.text)
          ++ (if items.isEmpty then "" else ", " ++ String.intercalate ", " items)
          ++ " FROM " ++ quoteName table
          ++ clauseText " " (1 + (clauseParams columns).length) join
          ++ joinsText (1 + (clauseParams columns).length + (clauseParams join).length) joins
          ++ clauseText " WHERE " (1 + (clauseParams columns).length + (clauseParams join).length
              + (joins.flatMap params).length) filter
          ++ ";",
        clauseParams columns ++ clauseParams join ++ joins.flatMap params ++ clauseParams filter⟩ := by
  have hparts := balanced_selectParts table hc hj hf hi hjs
  rw [selectStatement_eq, finish_join hparts]
  simp only [selectParts, numberedOn_append, List.flatMap_append, numberedOn_selectHead table columns hi, params_selectHead,
    params_clauseParts, params_joins, List.length_append, numberedOn_clauseParts (show MarkFree " " by decide),
    numberedOn_clauseParts (show MarkFree " WHERE " by decide), numberedOn_joins, Int.natCast_add, Int.add_assoc]

end Select

/-! ### Insertions -/

/-- What stands for a value in a row. -/
def cellText : Value → String
  | .default => "DEFAULT"
  | _ => "?"

/-- A row in parentheses. -/
def rowText (row : List Value) : String := "(" ++ String.intercalate "," (row.map cellText) ++ ")"

/-- The values of a row that are bound: all that are not left to the column default. -/
def boundValues : List Value → List Value
  | [] => []
  | .default :: rest => boundValues rest
  | v :: rest => v :: boundValues rest

section Rows

theorem insertCells_eq (row : List Value) :
    insertCells row = (Param.ofValues (boundValues row)).map fun ps => (row.map cellText, ps) := by
  fun_induction insertCells row with
  | case1 => rfl
  | case2 rest ih =>
    rw [ih, boundValues]
    cases Param.ofValues (boundValues rest) <;> rfl
  | case3 v rest hv ih =>
    rw [boundValues, Param.ofValues, Outcome.mapM_cons, ← Param.ofValues, ih, List.map_cons, cellText]
    · cases Param.ofValue v with
      | error e => rfl
      | ok p => cases Param.ofValues (boundValues rest) <;> rfl
    · exact hv
    · exact hv

/-- A row is a balanced fragment of its bound values. -/
theorem insertRow_eq (row : List Value) :
    insertRow row = (Param.ofValues (boundValues row)).map fun ps => ⟨rowText row, ps⟩ := by
  rw [insertRow, insertCells_eq]
  cases Param.ofValues (boundValues row) <;> rfl

/-- The cells of a row as fragments of their own. -/
theorem cells_eq_join {row : List Value} {ps : List Param} (h : Param.ofValues (boundValues row) = .ok ps) :
    ∃ fs : List Fragment, fs.map text = row.map cellText ∧ fs.flatMap params = ps ∧ ∀ f ∈ fs, f.Balanced := by
  fun_induction boundValues row generalizing ps with
  | case1 =>
    cases h
    exact ⟨[], rfl, rfl, by simp⟩
  | case2 rest ih =>
    obtain ⟨fs, h1, h2, h3⟩ := ih h
    refine ⟨plain "DEFAULT" :: fs, by simp [h1, cellText], by simp [h2], ?_⟩
    simpa [balanced_plain] using ⟨(by decide : MarkFree "DEFAULT"), h3⟩
  | case3 v rest hv ih =>
    rw [Param.ofValues, Outcome.mapM_cons] at h
    obtain ⟨p, hp, h⟩ := Outcome.bind_eq_ok.1 h
    obtain ⟨qs, hq, rfl⟩ := Outcome.map_eq_ok.1 h
    obtain ⟨fs, h1, h2, h3⟩ := ih hq
    have hm : Balanced ⟨"?", [p]⟩ := balanced_marks [p]
    refine ⟨⟨"?", [p]⟩ :: fs, ?_, by simp [h2], by simpa using ⟨hm, h3⟩⟩
    rw [List.map_cons, List.map_cons, h1, cellText]
    exact hv

theorem balanced_row {row : List Value} {f : Fragment} (h : insertRow row = .ok f) : f.Balanced := by
  rw [insertRow_eq] at h
  obtain ⟨ps, hps, rfl⟩ := Outcome.map_eq_ok.1 h
  obtain ⟨fs, h1, h2, h3⟩ := cells_eq_join hps
  have hj : Balanced ⟨String.intercalate "," (row.map cellText), ps⟩ := by
    have hb : (join "," fs).Balanced := balanced_join (by decide) h3
    rwa [Fragment.join, h1, h2] at hb
  exact (hj.prepend (by decide)).append (by decide)

theorem rows_ok {rows : List (List Value)} {ps : List Param} (h : Param.ofValues (rows.flatMap boundValues) = .ok ps) :
    ∃ fs, rows.mapM insertRow = .ok fs ∧ fs.map text = rows.map rowText ∧ fs.flatMap params = ps := by
  induction rows generalizing ps with
  | nil =>
    cases h
    exact ⟨[], rfl, rfl, rfl⟩
  | cons row rows ih =>
    obtain ⟨qs, rs, hq, hr, rfl⟩ := Param.ofValues_append.1 h
    obtain ⟨fs, h1, h2, h3⟩ := ih hr
    refine ⟨⟨rowText row, qs⟩ :: fs, ?_, by simp [h2], by simp [h3]⟩
    rw [Outcome.mapM_cons, insertRow_eq, hq, h1]
    rfl

theorem balanced_rows {rows : List (List Value)} {fs : List Fragment} (h : rows.mapM insertRow = .ok fs) :
    ∀ f ∈ fs, f.Balanced := by
  intro f hf
  obtain ⟨row, -, hrow⟩ := Outcome.of_mem_of_mapM_eq_ok h hf
  exact balanced_row hrow

end Rows

section Insert

variable (table : String) {columns : List Value} {rows : List (List Value)} {returning : Option Fragment}

/-- The fragments of an insertion. -/
def insertParts (names : List String) (rows : List Fragment) (returning : Option Fragment) : List Fragment :=
  [.plain ("INSERT INTO " ++ quoteName table ++ " (" ++ String.intercalate "," (names.map quoteName) ++ ") VALUES "),
    join "," rows] ++ clauseParts " RETURNING " returning

theorem markFree_insertHead (names : List String) : MarkFree
    ("INSERT INTO " ++ quoteName table ++ " (" ++ String.intercalate "," (names.map quoteName) ++ ") VALUES ") := by
  have hn : MarkFree (String.intercalate "," (names.map quoteName)) := by
    refine MarkFree.intercalate (by decide) fun t ht => ?_
    obtain ⟨name, -, rfl⟩ := List.mem_map.1 ht
    exact markFree_quoteName name
  exact (((MarkFree.append (by decide) (markFree_quoteName table)).append (by decide)).append hn).append (by decide)

theorem balanced_insertParts (names : List String) {fs : List Fragment} (hfs : ∀ f ∈ fs, f.Balanced)
    (hr : ∀ f ∈ returning, f.Balanced) : ∀ f ∈ insertParts table names fs returning, f.Balanced := by
  simp only [insertParts, List.forall_mem_append, List.forall_mem_cons, List.not_mem_nil, false_implies, implies_true,
    and_true, balanced_plain]
  exact ⟨⟨markFree_insertHead table names, balanced_join (by decide) hfs⟩, balanced_clauseParts (by decide) hr⟩

theorem columnName_eq_ok {v : Value} {name : String} : columnName v = .ok name ↔ v.toText? = some name := by
  unfold columnName
  split <;> simp_all

/-- Columns have names if all of them are texts. -/
theorem mapM_columnName {α : Type} {key : α → Value} {l : List α} {names : List String} :
    l.mapM (fun a => columnName (key a)) = .ok names ↔ l.map (fun a => (key a).toText?) = names.map some := by
  rw [Outcome.mapM_eq_ok, ← List.forall₂_eq_eq_eq, List.forall₂_map_left_iff, List.forall₂_map_right_iff]
  simp only [columnName_eq_ok]

/-- What an insertion is finished from, once its rows and names are in order. -/
theorem insertStatement_eq (hne : rows ≠ []) {fs : List Fragment} {names : List String}
    (hfs : rows.mapM insertRow = .ok fs) (hn : columns.mapM columnName = .ok names) :
    insertStatement table columns ⟨rows, returning.map .ok⟩ =
      Statement.finish (join "" (insertParts table names fs returning)) := by
  rw [insertStatement]
  simp only [List.isEmpty_iff, hne, if_false, Outcome.ok_bind, hfs, hn, clause_map_ok]
  rfl

theorem insertStatement_eq_ok {s : Statement} : insertStatement table columns ⟨rows, returning.map .ok⟩ = .ok s ↔
    rows ≠ [] ∧ ∃ fs names, rows.mapM insertRow = .ok fs ∧ columns.mapM columnName = .ok names ∧
      Statement.finish (join "" (insertParts table names fs returning)) = .ok s := by
  constructor
  · intro h
    by_cases hne : rows = []
    · subst hne
      cases h
    · rw [insertStatement] at h
      simp only [List.isEmpty_iff, hne, if_false] at h
      obtain ⟨fs, hfs, h⟩ := Outcome.bind_eq_ok.1 h
      obtain ⟨names, hn, h⟩ := Outcome.bind_eq_ok.1 h
      simp only [clause_map_ok, Outcome.ok_bind] at h
      exact ⟨hne, fs, names, hfs, hn, h⟩
  · rintro ⟨hne, fs, names, hfs, hn, h⟩
    rw [insertStatement_eq table hne hfs hn, h]

theorem insertStatement_of_supported (hne : rows ≠ []) {ps : List Param} {names : List String}
    (hp : Param.ofValues (rows.flatMap boundValues) = .ok ps) (hn : columns.mapM columnName = .ok names)
    (hr : ∀ f ∈ returning, f.Balanced) :
    insertStatement table columns ⟨rows, returning.map .ok⟩ = .ok
      ⟨"INSERT INTO " ++ quoteName table ++ " (" ++ String.intercalate "," (names.map quoteName) ++ ") VALUES "
          ++ numbered 1 (String.intercalate "," (rows.map rowText))
          ++ clauseText " RETURNING " (1 + ps.length) returning ++ ";",
        ps ++ clauseParams returning⟩ := by
  obtain ⟨fs, hfs, htext, hparams⟩ := rows_ok hp
  rw [insertStatement_eq table hne hfs hn, finish_join (balanced_insertParts table names (balanced_rows hfs) hr),
    insertParts, numberedOn_append, numberedOn_clauseParts (by decide)]
  simp only [numberedOn, text_plain, (markFree_insertHead table names).numbered_eq]
  simp [join, htext, hparams, params_clauseParts, String.append_assoc]

theorem ofValue_not_binding {v : Value} {sql detail : String} : Param.ofValue v ≠ .error (.binding sql detail) := by
  fun_cases Param.ofValue v <;> simp

theorem ofValues_not_binding {vs : List Value} {sql detail : String} :
    Param.ofValues vs ≠ .error (.binding sql detail) := by
  intro h
  obtain ⟨v, -, hv⟩ := Outcome.of_mapM_eq_error h
  exact ofValue_not_binding hv

theorem columnName_not_binding {v : Value} {sql detail : String} : columnName v ≠ .error (.binding sql detail) := by
  unfold columnName
  split <;> simp

/-- Whatever is wrong with rows and columns, marks and parameters of an insertion agree. -/
theorem insertStatement_not_binding (columns : List Value) (rows : List (List Value))
    (hr : ∀ f ∈ returning, f.Balanced) (sql detail : String) :
    insertStatement table columns ⟨rows, returning.map .ok⟩ ≠ .error (.binding sql detail) := by
  by_cases hne : rows = []
  · subst hne
    simp [insertStatement]
  cases hfs : rows.mapM insertRow with
  | error e =>
    obtain ⟨row, -, hrow⟩ := Outcome.of_mapM_eq_error hfs
    rw [insertRow_eq, Outcome.map_eq_error] at hrow
    rw [insertStatement]
    simp only [List.isEmpty_iff, hne, if_false, hfs, Outcome.error_bind]
    rintro ⟨⟩
    exact ofValues_not_binding hrow
  | ok fs =>
    cases hn : columns.mapM columnName with
    | error e =>
      obtain ⟨c, -, hc⟩ := Outcome.of_mapM_eq_error hn
      rw [insertStatement]
      simp only [List.isEmpty_iff, hne, if_false, Outcome.ok_bind, hfs, hn, Outcome.error_bind]
      rintro ⟨⟩
      exact columnName_not_binding hc
    | ok names =>
      rw [insertStatement_eq table hne hfs hn, finish_join (balanced_insertParts table names (balanced_rows hfs) hr)]
      simp

end Insert

/-! ### Updates -/

section Update

variable (table : String) {assignments : Dict} {filter returning : Option Fragment}

/-- The assignments of an update, each with its mark. -/
def setText (names : List String) : String := String.intercalate "," (names.map fun name => quoteName name ++ "=?")

theorem balanced_set_mark (p : Param) : Balanced ⟨"=?", [p]⟩ :=
  (balanced_marks [p]).prepend (a := "=") (by decide)

theorem balanced_set {names : List String} {ps : List Param} (h : names.length = ps.length) :
    Balanced ⟨setText names, ps⟩ := by
  have hfst : (names.zip ps).map Prod.fst = names := List.map_fst_zip (by omega)
  have hsnd : (names.zip ps).map Prod.snd = ps := List.map_snd_zip (by omega)
  have hj : (⟨setText names, ps⟩ : Fragment) =
      join "," ((names.zip ps).map fun a => ⟨quoteName a.1 ++ "=?", [a.2]⟩) := by
    rw [join, setText, List.map_map, List.flatMap_map]
    congr 1
    · conv_lhs => rw [← hfst, List.map_map]
      rfl
    · conv_lhs => rw [← hsnd, List.map_eq_flatMap]
  rw [hj]
  refine balanced_join (by decide) fun f hf => ?_
  obtain ⟨⟨n, p⟩, -, rfl⟩ := List.mem_map.1 hf
  exact (balanced_set_mark p).prepend (markFree_quoteName n)

/-- The fragments of an update. -/
def updateParts (names : List String) (ps : List Param) (filter returning : Option Fragment) : List Fragment :=
  [⟨"UPDATE " ++ quoteName table ++ " SET " ++ setText names, ps⟩] ++ clauseParts " WHERE " filter
    ++ clauseParts " RETURNING " returning

theorem markFree_updateHead : MarkFree ("UPDATE " ++ quoteName table ++ " SET ") :=
  (MarkFree.append (by decide) (markFree_quoteName table)).append (by decide)

theorem balanced_updateParts {names : List String} {ps : List Param} (h : names.length = ps.length)
    (hf : ∀ f ∈ filter, f.Balanced) (hr : ∀ f ∈ returning, f.Balanced) :
    ∀ f ∈ updateParts table names ps filter returning, f.Balanced := by
  simp only [updateParts, List.forall_mem_append, List.forall_mem_singleton]
  exact ⟨⟨(balanced_set h).prepend (markFree_updateHead table), balanced_clauseParts (by decide) hf⟩,
    balanced_clauseParts (by decide) hr⟩

/-- What an update is finished from, once its names and values are in order. -/
theorem updateStatement_eq (hne : assignments ≠ []) {names : List String} {ps : List Param}
    (hn : assignments.mapM (fun a => columnName a.1) = .ok names)
    (hp : Param.ofValues (assignments.map (·.2)) = .ok ps) :
    updateStatement table ⟨assignments, filter.map .ok, returning.map .ok⟩ =
      Statement.finish (join "" (updateParts table names ps filter returning)) := by
  rw [updateStatement]
  simp only [List.isEmpty_iff, hne, if_false, Outcome.ok_bind, hn, hp, clause_map_ok]
  rfl

theorem updateStatement_eq_ok {s : Statement} :
    updateStatement table ⟨assignments, filter.map .ok, returning.map .ok⟩ = .ok s ↔
      assignments ≠ [] ∧ ∃ names ps, assignments.mapM (fun a => columnName a.1) = .ok names ∧
        Param.ofValues (assignments.map (·.2)) = .ok ps ∧
        Statement.finish (join "" (updateParts table names ps filter returning)) = .ok s := by
  constructor
  · intro h
    by_cases hne : assignments = []
    · subst hne
      cases h
    · rw [updateStatement] at h
      simp only [List.isEmpty_iff, hne, if_false] at h
      obtain ⟨names, hn, h⟩ := Outcome.bind_eq_ok.1 h
      obtain ⟨ps, hp, h⟩ := Outcome.bind_eq_ok.1 h
      simp only [clause_map_ok, Outcome.ok_bind] at h
      exact ⟨hne, names, ps, hn, hp, h⟩
  · rintro ⟨hne, names, ps, hn, hp, h⟩
    rw [updateStatement_eq table hne hn hp, h]

theorem length_names_eq {names : List String} {ps : List Param}
    (hn : assignments.mapM (fun a => columnName a.1) = .ok names)
    (hp : Param.ofValues (assignments.map (·.2)) = .ok ps) : names.length = ps.length := by
  rw [← (Outcome.mapM_eq_ok.1 hn).length_eq, Param.length_ofValues hp, List.length_map]

theorem updateStatement_of_supported (hne : assignments ≠ []) {names : List String} {ps : List Param}
    (hn : assignments.mapM (fun a => columnName a.1) = .ok names)
    (hp : Param.ofValues (assignments.map (·.2)) = .ok ps)
    (hf : ∀ f ∈ filter, f.Balanced) (hr : ∀ f ∈ returning, f.Balanced) :
    updateStatement table ⟨assignments, filter.map .ok, returning.map .ok⟩ = .ok
      ⟨"UPDATE " ++ quoteName table ++ " SET " ++ numbered 1 (setText names)
          ++ clauseText " WHERE " (1 + ps.length) filter
          ++ clauseText " RETURNING " (1 + ps.length + (clauseParams filter).length) returning ++ ";",
        ps ++ clauseParams filter ++ clauseParams returning⟩ := by
  have hl := length_names_eq hn hp
  have hhead := markFree_updateHead table
  rw [updateStatement_eq table hne hn hp, finish_join (balanced_updateParts table hl hf hr), updateParts,
    numberedOn_append, numberedOn_append, numberedOn_clauseParts (by decide), numberedOn_clauseParts (by decide)]
  simp only [numberedOn, numbered_append hhead.1, hhead.numbered_eq, hhead.2]
  simp [params_clauseParts, String.append_assoc, Int.add_assoc]

theorem updateStatement_of_unsupported (hne : assignments ≠ []) {names : List String} {e : Failure}
    (hn : assignments.mapM (fun a => columnName a.1) = .ok names)
    (hp : Param.ofValues (assignments.map (·.2)) = .error e) :
    updateStatement table ⟨assignments, filter.map .ok, returning.map .ok⟩ = .error e := by
  rw [updateStatement]
  simp only [List.isEmpty_iff, hne, if_false, hn, Outcome.ok_bind, hp, Outcome.error_bind]

/-- Whatever is wrong with names and values, marks and parameters of an update agree. -/
theorem updateStatement_not_binding (assignments : Dict) (hf : ∀ f ∈ filter, f.Balanced)
    (hr : ∀ f ∈ returning, f.Balanced) (sql detail : String) :
    updateStatement table ⟨assignments, filter.map .ok, returning.map .ok⟩ ≠ .error (.binding sql detail) := by
  by_cases hne : assignments = []
  · subst hne
    simp [updateStatement]
  cases hn : assignments.mapM (fun a => columnName a.1) with
  | error e =>
    obtain ⟨a, -, ha⟩ := Outcome.of_mapM_eq_error hn
    rw [updateStatement]
    simp only [List.isEmpty_iff, hne, if_false, hn, Outcome.error_bind]
    rintro ⟨⟩
    exact columnName_not_binding ha
  | ok names =>
    cases hp : Param.ofValues (assignments.map (·.2)) with
    | error e =>
      rw [updateStatement_of_unsupported table hne hn hp]
      rintro ⟨⟩
      exact ofValues_not_binding hp
    | ok ps =>
      rw [updateStatement_eq table hne hn hp, finish_join (balanced_updateParts table (length_names_eq hn hp) hf hr)]
      simp

end Update

/-! ### The whole -/

/-- **Balance**, from conditions to statements. Trees of conditions and joined fragments are balanced, with their
parameters in order; and statements of balanced clauses, whichever of them are there, never fail for their marks, have
the parameters of their clauses in clause order, and number the marks of each clause on from the clauses before it. -/
theorem balanced_building :
    (∀ (t : ConditionTree) (ps : List Param), (∀ s ∈ t.texts, MarkFree s) → t.Filled →
      Param.ofValues t.values = .ok ps → ∃ c, t.build = .ok c ∧ c.Balanced ∧ c.params = ps) ∧
    (∀ (separator : String) (fs : List Fragment), MarkFree separator → (∀ f ∈ fs, f.Balanced) →
      (Fragment.join separator fs).Balanced ∧ (Fragment.join separator fs).params = fs.flatMap params) ∧
    (∀ (table : String) (columns join filter : Option Fragment) (items : List String) (joins : List Fragment),
      (∀ f ∈ columns, f.Balanced) → (∀ f ∈ join, f.Balanced) → (∀ f ∈ filter, f.Balanced) →
      (∀ t ∈ items, MarkFree t) → (∀ f ∈ joins, f.Balanced) →
      selectStatement table ⟨columns.map .ok, join.map .ok, filter.map .ok⟩ items joins = .ok
        ⟨"SELECT " ++ columns.elim (quoteName table ++ ".*") (fun f => numbered 1 f.text)
            ++ (if items.isEmpty then "" else ", " ++ String.intercalate ", " items)
            ++ " FROM " ++ quoteName table
            ++ clauseText " " (1 + (clauseParams columns).length) join
            ++ joinsText (1 + (clauseParams columns).length + (clauseParams join).length) joins
            ++ clauseText " WHERE " (1 + (clauseParams columns).length + (clauseParams join).length
                + (joins.flatMap params).length) filter
            ++ ";",
          clauseParams columns ++ clauseParams join ++ joins.flatMap params ++ clauseParams filter⟩) ∧
    (∀ (table : String) (columns : List Value) (rows : List (List Value)) (returning : Option Fragment),
      (∀ f ∈ returning, f.Balanced) →
      (∀ sql detail, insertStatement table columns ⟨rows, returning.map .ok⟩ ≠ .error (.binding sql detail)) ∧
      ∀ names ps, rows ≠ [] → columns.mapM columnName = .ok names →
        Param.ofValues (rows.flatMap boundValues) = .ok ps →
        insertStatement table columns ⟨rows, returning.map .ok⟩ = .ok
          ⟨"INSERT INTO " ++ quoteName table ++ " (" ++ String.intercalate "," (names.map quoteName) ++ ") VALUES "
              ++ numbered 1 (String.intercalate "," (rows.map rowText))
              ++ clauseText " RETURNING " (1 + ps.length) returning ++ ";",
            ps ++ clauseParams returning⟩) ∧
    (∀ (table : String) (assignments : Dict) (filter returning : Option Fragment),
      (∀ f ∈ filter, f.Balanced) → (∀ f ∈ returning, f.Balanced) →
      (∀ sql detail, updateStatement table ⟨assignments, filter.map .ok, returning.map .ok⟩ ≠
        .error (.binding sql detail)) ∧
      ∀ names ps, assignments ≠ [] → assignments.mapM (fun a => columnName a.1) = .ok names →
        Param.ofValues (assignments.map (·.2)) = .ok ps →
        updateStatement table ⟨assignments, filter.map .ok, returning.map .ok⟩ = .ok
          ⟨"UPDATE " ++ quoteName table ++ " SET " ++ numbered 1 (setText names)
              ++ clauseText " WHERE " (1 + ps.length) filter
              ++ clauseText " RETURNING " (1 + ps.length + (clauseParams filter).length) returning ++ ";",
            ps ++ clauseParams filter ++ clauseParams returning⟩) := by
  refine ⟨fun t ps ht hf h => t.build_ok ht hf h, fun separator fs hs h => ⟨balanced_join hs h, rfl⟩,
    fun table columns join filter items joins hc hj hf hi hjs => selectStatement_of_balanced table hc hj hf hi hjs,
    fun table columns rows returning hr => ⟨?_, ?_⟩, fun table assignments filter returning hf hr => ⟨?_, ?_⟩⟩
  · exact insertStatement_not_binding table columns rows hr
  · intro names ps hne hn hp
    exact insertStatement_of_supported table hne hp hn hr
  · exact updateStatement_not_binding table assignments hf hr
  · intro names ps hne hn hp
    exact updateStatement_of_supported table hne hn hp hf hr

/-- A name with a mark, a quote and a mark in quotes in the join, and no clause of columns. -/
theorem balanced_building_odd_names :
    selectStatement "a?\x22b" ⟨none, some (.ok ⟨"JOIN t ON x = '?''' || ?", [⟨.integer, .integer 7⟩]⟩),
        some (.ok ⟨"(\"c\"\"\" = ?)", [⟨.null, .null⟩]⟩)⟩ [] [] = .ok
      ⟨"SELECT \"a?\"\"b\".* FROM \"a?\"\"b\" JOIN t ON x = '?''' || $1 WHERE (\"c\"\"\" = $2);",
        [⟨.integer, .integer 7⟩, ⟨.null, .null⟩]⟩ := by
  have hj : Balanced ⟨"JOIN t ON x = '?''' || ?", [⟨.integer, .integer 7⟩]⟩ := ⟨by decide, by decide⟩
  have hf : Balanced ⟨"(\"c\"\"\" = ?)", [⟨.null, .null⟩]⟩ := ⟨by decide, by decide⟩
  have h := balanced_building.2.2.1 "a?\x22b" none (some _) (some _) [] [] (by simp) (by simpa using hj)
    (by simpa using hf) (by simp) (by simp)
  refine h.trans ?_
  rw [Except.ok.injEq, Statement.mk.injEq]
  exact ⟨by decide +kernel, rfl⟩

end RecordSql
