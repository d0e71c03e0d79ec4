import Mathlib.Data.List.Sublists
import RecordSql.Proofs.Sql.Listing
import RecordSql.Proofs.Table.Builder
import RecordSql.Proofs.Table.Key
import RecordSql.Proofs.Value.Fields

/-!
# Cells of insertions

An insertion writes a grid: a row for every record and a cell for every column that it lists. A cell is the default, or
the mark of the value that its record has for its column. Cells that are the default take no number, a key column may
be left out of all rows, and rows and columns are kept apart from each other, so the marks have to be counted.

* `Insertion.values_eq_ok`: what setting the rows leaves.
* `Insertion.getElem?_grid`: the text of a cell, and the parameter that belongs to its mark.
* `Builder.inserts_cells`: the statement, for every insertion and whatever was asked of it before and after.
-/

namespace RecordSql

open Builder

/-! ### Columns -/

namespace Value

variable {c : Value} {name : String}

theorem checkKey_of_toText? (h : c.toText? = some name) : c.checkKey = .ok () := by
  cases c with
  | text | symbol => rfl
  | _ => cases h

end Value

/-- What a row gives to a column, unless it lacks the column or leaves it to the default. -/
def Dict.given? (row : Dict) (column : String) : Option Value :=
  match row.column? column with
  | some .default => none
  | v => v

namespace Insertion

variable {columns : List Value} {names listed : List String} {rows : List Dict} {row : Dict}

/-- The cells of a row are what it has under the names of the columns. -/
theorem cells_eq (h : columns.map Value.toText? = names.map some) (row : Dict) :
    cells columns row = .ok (names.map fun n => (row.column? n).getD .default) := by
  induction columns generalizing names with
  | nil =>
    obtain rfl := List.map_eq_nil_iff.1 h.symm
    rfl
  | cons c columns ih =>
    cases names with
    | nil => cases h
    | cons n names =>
      obtain ⟨hc, hcolumns⟩ := List.cons.inj h
      have hget : row.get? c = row.column? n := by
        simp only [Dict.column?, Dict.get?, Value.eqv_of_toText? hc]
      have hrest := ih hcolumns
      rw [cells] at hrest ⊢
      rw [Outcome.mapM_cons, Value.checkKey_of_toText? hc, hrest, hget]
      rfl

theorem mapM_cells (h : columns.map Value.toText? = names.map some) (rows : List Dict) :
    rows.mapM (cells columns) = .ok (rows.map fun row => names.map fun n => (row.column? n).getD .default) := by
  rw [Outcome.mapM_congr fun row _ => cells_eq h row]
  exact List.mapM_pure

/-! ### Values by their places -/

/-- The values that rows give to columns, row by row. -/
def givenValues (listed : List String) (rows : List Dict) : List Value :=
  rows.flatMap fun row => listed.filterMap row.given?

/-- How many of them stand before the cell at a place of a row. -/
def givenBefore (listed : List String) (rows : List Dict) (row : Dict) (i j : Nat) : Nat :=
  (givenValues listed (rows.take i)).length + ((listed.take j).filterMap row.given?).length

/-- The values that are bound for a row are those that it gives to the columns. -/
theorem boundValues_cells (row : Dict) (listed : List String) :
    boundValues (listed.map fun n => (row.column? n).getD .default) = listed.filterMap row.given? := by
  induction listed with
  | nil => rfl
  | cons n listed ih =>
    rw [List.map_cons, List.filterMap_cons, Dict.given?]
    cases row.column? n with
    | none => exact ih
    | some v => cases v with
      | default => exact ih
      | _ => exact congrArg _ ih

theorem getElem?_filterMap {α β : Type} {f : α → Option β} {l : List α} {j : Nat} {a : α} {b : β} (hj : l[j]? = some a)
    (hb : f a = some b) : (l.filterMap f)[((l.take j).filterMap f).length]? = some b := by
  obtain ⟨hlt, rfl⟩ := List.getElem?_eq_some_iff.1 hj
  have hsplit : l.filterMap f = (l.take j).filterMap f ++ b :: (l.drop (j + 1)).filterMap f := by
    conv_lhs => rw [← List.take_append_drop j l, List.drop_eq_getElem_cons hlt, List.filterMap_append]
    rw [List.filterMap_cons_some hb]
  rw [hsplit, List.getElem?_append_right (Nat.le_refl _), Nat.sub_self, List.getElem?_cons_zero]

/-- The value of a cell has its place among all values. -/
theorem getElem?_givenValues {i j : Nat} {n : String} {v : Value} (hi : rows[i]? = some row) (hj : listed[j]? = some n)
    (hv : row.given? n = some v) : (givenValues listed rows)[givenBefore listed rows row i j]? = some v := by
  obtain ⟨hlt, rfl⟩ := List.getElem?_eq_some_iff.1 hi
  have hcell := getElem?_filterMap hj hv
  have hsplit : givenValues listed rows = givenValues listed (rows.take i) ++
      (listed.filterMap (Dict.given? rows[i]) ++ givenValues listed (rows.drop (i + 1))) := by
    conv_lhs => rw [givenValues, ← List.take_append_drop i rows, List.drop_eq_getElem_cons hlt, List.flatMap_append]
    rfl
  rw [hsplit, givenBefore, List.getElem?_append_right (Nat.le_add_right _ _), Nat.add_sub_cancel_left,
    List.getElem?_append_left (List.getElem?_eq_some_iff.1 hcell).1, hcell]

/-! ### The grid -/

/-- What stands in the cell of a row and a column before it is numbered. -/
def bareCell (row : Dict) (n : String) : String := (row.given? n).elim "DEFAULT" fun _ => "?"

theorem cellText_eq_bareCell (row : Dict) (n : String) :
    cellText ((row.column? n).getD .default) = bareCell row n := by
  rw [bareCell, Dict.given?]
  cases row.column? n with
  | none => rfl
  | some v => cases v <;> rfl

theorem closed_bareCell (row : Dict) (n : String) : Closed (bareCell row n) := by
  rw [bareCell]
  cases row.given? n with
  | none => exact (by decide : Closed "DEFAULT")
  | some v => exact (by decide : Closed "?")

/-- The cells of a row have a mark for every value that it gives. -/
theorem marksIn_bareCells (row : Dict) (listed : List String) :
    marksIn (listed.map (bareCell row)) = (listed.filterMap row.given?).length := by
  induction listed with
  | nil => rfl
  | cons n listed ih =>
    have hdefault : marksOf "DEFAULT" = 0 := by decide
    have hmark : marksOf "?" = 1 := by decide
    rw [List.map_cons, marksIn, ih, bareCell]
    cases hn : row.given? n with
    | none => rw [List.filterMap_cons_none hn, Option.elim_none, hdefault, Nat.zero_add]
    | some v => rw [List.filterMap_cons_some hn, Option.elim_some, hmark, List.length_cons, Nat.add_comm]

/-- The cells of rows, each with its number. -/
def grid (next : Int) (listed : List String) : List Dict → List (List String)
  | [] => []
  | row :: rows => numberedEach next (listed.map (bareCell row)) ::
      grid (next + (listed.filterMap row.given?).length) listed rows

/-- Cells in parentheses, with commas between them. -/
def gridText (cells : List (List String)) : String :=
  String.intercalate "," (cells.map fun row => "(" ++ String.intercalate "," row ++ ")")

theorem rowText_eq_bareCells (row : Dict) (listed : List String) :
    rowText (listed.map fun n => (row.column? n).getD .default) =
      "(" ++ String.intercalate "," (listed.map (bareCell row)) ++ ")" := by
  rw [rowText, List.map_map]
  exact congrArg (fun cells => "(" ++ String.intercalate "," cells ++ ")")
    (List.map_congr_left fun n _ => cellText_eq_bareCell row n)

/-- The rows of an insertion are numbered cell by cell. -/
theorem numbered_rows (next : Int) (listed : List String) (rows : List Dict) :
    numbered next (String.intercalate ","
      (rows.map fun row => rowText (listed.map fun n => (row.column? n).getD .default))) =
      gridText (grid next listed rows) := by
  have hcells : ∀ row : Dict, ∀ t ∈ listed.map (bareCell row), Closed t := by
    intro row t ht
    obtain ⟨n, -, rfl⟩ := List.mem_map.1 ht
    exact closed_bareCell row n
  have hrow : ∀ (row : Dict) (next : Int),
      Closed ("(" ++ String.intercalate "," (listed.map (bareCell row)) ++ ")") ∧
      marksOf ("(" ++ String.intercalate "," (listed.map (bareCell row)) ++ ")") =
        (listed.filterMap row.given?).length ∧
      numbered next ("(" ++ String.intercalate "," (listed.map (bareCell row)) ++ ")") =
        "(" ++ String.intercalate "," (numberedEach next (listed.map (bareCell row))) ++ ")" := by
    intro row next
    have hlist : Closed (String.intercalate "," (listed.map (bareCell row))) :=
      Closed.intercalate (by decide) (hcells row)
    refine ⟨hlist.parens, ?_, ?_⟩
    · rw [marksOf_parens hlist, marksOf_intercalate (by decide) (hcells row), marksIn_bareCells]
    · rw [numbered_parens hlist, numbered_intercalate (by decide) (hcells row)]
  simp only [rowText_eq_bareCells]
  rw [numbered_intercalate (by decide)]
  · rw [gridText]
    congr 1
    induction rows generalizing next with
    | nil => rfl
    | cons row rows ih =>
      obtain ⟨-, hmarks, hnumbered⟩ := hrow row next
      rw [List.map_cons, numberedEach, hmarks, hnumbered, ih]
      rfl
  · intro t ht
    obtain ⟨row, -, rfl⟩ := List.mem_map.1 ht
    exact (hrow row 1).1

theorem getElem?_grid (next : Int) (rows : List Dict) (i : Nat) : (grid next listed rows)[i]? =
    rows[i]?.map fun row =>
      numberedEach (next + (givenValues listed (rows.take i)).length) (listed.map (bareCell row)) := by
  induction rows generalizing next i with
  | nil => rfl
  | cons row rows ih =>
    cases i with
    | zero => simp [grid, givenValues]
    | succ i => simp [grid, givenValues, ih, Int.add_assoc]

/-- A cell is the default, or a dollar sign with the number of its value. -/
theorem getElem?_cells {i j : Nat} {n : String} (hj : listed[j]? = some n) :
    (numberedEach (1 + (givenValues listed (rows.take i)).length) (listed.map (bareCell row)))[j]? =
      some ((row.given? n).elim "DEFAULT" fun _ => "$" ++ toString (givenBefore listed rows row i j + 1)) := by
  rw [getElem?_numberedEach, List.getElem?_map, hj, ← List.map_take, marksIn_bareCells, Option.map_some,
    Option.map_some, bareCell]
  cases row.given? n with
  | none => exact congrArg some (MarkFree.numbered_eq (by decide) _)
  | some v =>
    have hnumber :
        (1 + (givenValues listed (rows.take i)).length + ((listed.take j).filterMap row.given?).length : Int) =
        ((givenBefore listed rows row i j + 1 : Nat) : Int) := by
      rw [givenBefore]
      push_cast
      omega
    rw [hnumber, Option.elim_some, numbered_mark]
    rfl

/-! ### Listed columns -/

/-- The records that are given to an insertion. -/
def recordsOf : Value → List Value
  | .list vs | .tuple vs => vs
  | v => [v]

variable {i j : Insertion} {records : Value}

theorem values_eq_ok : i.values records = .ok j ↔ ∃ rows grid, (recordsOf records).mapM i.table.rowOf = .ok rows ∧
    rows.mapM (cells (i.writtenWithout (i.generatedKey? rows))) = .ok grid ∧
    j = { i with written := i.writtenWithout (i.generatedKey? rows), clauses.rows := grid, built := none } := by
  have hvalues : i.values records = (recordsOf records).mapM i.table.rowOf >>= fun rows =>
      rows.mapM (cells (i.writtenWithout (i.generatedKey? rows))) >>= fun grid =>
        .ok { i with written := i.writtenWithout (i.generatedKey? rows), clauses.rows := grid, built := none } := by
    cases records <;> rfl
  simp only [hvalues, Outcome.bind_eq_ok, Except.ok.injEq]
  constructor
  · rintro ⟨rows, hrows, grid, hgrid, rfl⟩
    exact ⟨rows, grid, hrows, hgrid, rfl⟩
  · rintro ⟨rows, grid, hrows, hgrid, rfl⟩
    exact ⟨rows, hrows, grid, hgrid, rfl⟩

/-- A key column is left out if it is the only one, there are others to write, and no row gives it a value. -/
theorem generatedKey?_eq_some (h : i.columns.map Value.toText? = names.map some) {c : String} :
    i.generatedKey? rows = some c ↔ c ∈ names ∧ i.table.key = [c] ∧ 2 ≤ names.length ∧
      ∀ row ∈ rows, row.column? c = none ∨ row.column? c = some .null := by
  have hlength : i.columns.length = names.length := by simpa using congrArg List.length h
  have hmem : ∀ key, i.columns.any (·.eqv (.text key)) = true ↔ key ∈ names := by
    intro key
    rw [List.any_eq_true]
    constructor
    · rintro ⟨column, hcolumn, heq⟩
      have hkey : some key ∈ names.map some := by
        rw [← h, ← (Value.eqv_text column key).1 heq]
        exact List.mem_map_of_mem hcolumn
      simpa using hkey
    · intro hkey
      obtain ⟨column, hcolumn, heq⟩ := List.mem_map.1 (h ▸ List.mem_map_of_mem hkey : some key ∈ _)
      exact ⟨column, hcolumn, (Value.eqv_text column key).2 heq⟩
  have hunset : ∀ (row : Dict) (key : String), ((row.column? key).getD .null).isNull = true ↔
      row.column? key = none ∨ row.column? key = some .null := by
    intro row key
    cases row.column? key <;> simp [Value.isNull_iff]
  unfold generatedKey?
  split
  · rename_i key hkey
    simp only [hlength, hmem, List.all_eq_true, hunset, Option.ite_none_right_eq_some, Option.some.injEq, hkey,
      List.cons.injEq, and_true]
    constructor
    · rintro ⟨⟨htwo, hname, hall⟩, rfl⟩
      exact ⟨hname, rfl, htwo, hall⟩
    · rintro ⟨hname, rfl, htwo, hall⟩
      exact ⟨⟨htwo, hname, hall⟩, rfl⟩
  · rename_i hkey
    refine iff_of_false (Option.some_ne_none c).symm ?_
    rintro ⟨-, hc, -⟩
    exact hkey c hc

/-- The columns that are listed are all but the one left out. -/
theorem writtenWithout_eq (h : i.columns.map Value.toText? = names.map some) (generated : Option String) :
    (i.writtenWithout generated).map Value.toText? = (names.filter fun n => generated ≠ some n).map some := by
  unfold writtenWithout
  generalize i.columns = columns at h
  induction columns generalizing names with
  | nil =>
    obtain rfl := List.map_eq_nil_iff.1 h.symm
    rfl
  | cons c columns ih =>
    cases names with
    | nil => cases h
    | cons n names =>
      obtain ⟨hc, hcolumns⟩ := List.cons.inj h
      have homitted : c.eqv (generated.elim .null .text) = true ↔ generated = some n := by
        cases generated with
        | none =>
          rw [Option.elim_none, Value.eqv_null_iff (Value.checkKey_of_toText? hc)]
          refine iff_of_false ?_ (Option.some_ne_none n).symm
          rintro rfl
          cases hc
        | some key => rw [Option.elim_some, Value.eqv_text, hc, Option.some.injEq, Option.some.injEq, eq_comm]
      have hkept : (!c.eqv (generated.elim .null .text)) = decide (generated ≠ some n) := by
        rw [Bool.eq_iff_iff, Bool.not_eq_true', ← Bool.not_eq_true, homitted, decide_eq_true_iff]
      rw [List.filter_cons, List.filter_cons, hkept]
      split
      · rw [List.map_cons, List.map_cons, hc]
        exact congrArg _ (ih hcolumns)
      · exact ih hcolumns

end Insertion

/-- The columns that an insertion of rows lists: those that may be written, in their order, all but the only key column
if no row has a value for it and there are others. -/
structure Table.Lists (t : Table) (names : List String) (rows : List Dict) (listed : List String) : Prop where
  sublist : listed.Sublist names
  left_out : ∀ c ∈ names, c ∉ listed ↔
    t.key = [c] ∧ 2 ≤ names.length ∧ ∀ row ∈ rows, row.column? c = none ∨ row.column? c = some .null
  ne_nil : listed ≠ []
  kept : ∀ c ∈ names, ∀ row ∈ rows, ∀ v, row.column? c = some v → v ≠ .null → c ∈ listed

/-- Cells for rows and listed columns, and parameters. A cell is the default if its row lacks its column or leaves it to
the default. Else it is a dollar sign with a number that counts the values up to it, row by row, and the parameter of
this number is that of its value. -/
structure Insertion.LaidOut (listed : List String) (rows : List Dict) (cells : List (List String)) (ps : List Param) :
    Prop where
  values : Param.ofValues (givenValues listed rows) = .ok ps
  height : cells.length = rows.length
  width : ∀ row ∈ cells, row.length = listed.length
  cell : ∀ (i j : Nat) (row : Dict) (column : String), rows[i]? = some row → listed[j]? = some column →
    match row.column? column with
    | none | some .default => (cells[i]?.bind (·[j]?)) = some "DEFAULT"
    | some v => (cells[i]?.bind (·[j]?)) = some ("$" ++ toString (givenBefore listed rows row i j + 1)) ∧
      ∃ p, Param.ofValue v = .ok p ∧ ps[givenBefore listed rows row i j]? = some p

namespace Insertion

variable {columns : List Value} {names listed : List String} {rows : List Dict} {i : Insertion}

theorem lists_written (hi : i.columns.map Value.toText? = names.map some) (hne : names ≠ []) (hn : names.Nodup)
    (rows : List Dict) : i.table.Lists names rows (names.filter fun n => i.generatedKey? rows ≠ some n) := by
  have hout : ∀ c ∈ names, c ∉ names.filter (fun n => i.generatedKey? rows ≠ some n) ↔
      i.table.key = [c] ∧ 2 ≤ names.length ∧ ∀ row ∈ rows, row.column? c = none ∨ row.column? c = some .null := by
    intro c hc
    simp only [List.mem_filter, hc, true_and, ne_eq, decide_not, Bool.not_eq_true', decide_eq_false_iff_not, not_not,
      generatedKey?_eq_some hi]
  refine ⟨List.filter_sublist, hout, ?_, ?_⟩
  · -- of two names at least one is not the one left out
    cases hg : i.generatedKey? rows with
    | none => simpa using hne
    | some key =>
      obtain ⟨-, -, htwo, -⟩ := (generatedKey?_eq_some hi).1 hg
      match names, htwo, hn with
      | a :: b :: rest, _, hn =>
        have hab : a ≠ b := fun h => (List.nodup_cons.1 hn).1 (h ▸ List.mem_cons_self)
        by_cases ha : a = key
        · exact List.ne_nil_of_mem (List.mem_filter.2 ⟨show b ∈ _ by simp, by simpa [← ha] using hab⟩)
        · exact List.ne_nil_of_mem (List.mem_filter.2 ⟨show a ∈ _ by simp, by simpa using Ne.symm ha⟩)
  · intro c hc row hrow v hv hnull
    by_contra hnot
    obtain ⟨-, -, hall⟩ := (hout c hc).1 hnot
    rcases hall row hrow with hnone | hsome
    · rw [hv] at hnone
      cases hnone
    · rw [hv] at hsome
      exact hnull (Option.some.inj hsome)

theorem laidOut_grid {ps : List Param} (hps : Param.ofValues (givenValues listed rows) = .ok ps) :
    LaidOut listed rows (grid 1 listed rows) ps := by
  have hcell : ∀ (i j : Nat) (row : Dict) (column : String), rows[i]? = some row → listed[j]? = some column →
      ((grid 1 listed rows)[i]?.bind (·[j]?)) = some ((row.given? column).elim "DEFAULT" fun _ =>
        "$" ++ toString (givenBefore listed rows row i j + 1)) := by
    intro i j row column hi hj
    rw [getElem?_grid, hi, Option.map_some, Option.bind_some, getElem?_cells hj]
  refine ⟨hps, ?_, ?_, ?_⟩
  · clear hps hcell
    generalize (1 : Int) = next
    induction rows generalizing next with
    | nil => rfl
    | cons row rows ih => rw [grid, List.length_cons, ih, List.length_cons]
  · intro cells hmem
    obtain ⟨i, hi⟩ := List.getElem?_of_mem hmem
    rw [getElem?_grid] at hi
    obtain ⟨row, -, rfl⟩ := Option.map_eq_some_iff.1 hi
    rw [length_numberedEach, List.length_map]
  · intro i j row column hi hj
    have htext := hcell i j row column hi hj
    split
    · rename_i hnone
      rwa [Dict.given?, hnone] at htext
    · rename_i hdefault
      rwa [Dict.given?, hdefault] at htext
    · rename_i v hdefault hv
      have hgiven : row.given? column = some v := by
        rw [Dict.given?, hv]
        split
        · rename_i heq
          exact absurd (Option.some.inj heq) hdefault
        · rfl
      rw [hgiven] at htext
      refine ⟨htext, ?_⟩
      obtain ⟨hlength, hall⟩ := List.forall₂_iff_get.1 (Outcome.mapM_eq_ok.1 hps)
      obtain ⟨hlt, hget⟩ := List.getElem?_eq_some_iff.1 (getElem?_givenValues hi hj hgiven)
      have hlt' : givenBefore listed rows row i j < ps.length := hlength ▸ hlt
      refine ⟨ps[givenBefore listed rows row i j], ?_, List.getElem?_eq_getElem hlt'⟩
      have hone := hall _ hlt hlt'
      rwa [List.get_eq_getElem, List.get_eq_getElem, hget] at hone

/-- The statement of an insertion that lists columns of given names and has the cells of rows under them. -/
theorem compile_rows {t : Table} {columns written : List Value} {built : Option Statement} {returning : Option Fragment}
    {ps : List Param} (hw : written.map Value.toText? = listed.map some) (hne : rows ≠ [])
    (hps : Param.ofValues (givenValues listed rows) = .ok ps) :
    let i : Insertion := ⟨t, columns, written,
      ⟨rows.map fun row => listed.map fun n => (row.column? n).getD .default, returning.map .ok⟩, built⟩
    ((∀ f ∈ returning, f.Balanced) → i.compile = .ok
      ⟨"INSERT INTO " ++ quoteName t.name ++ " (" ++ String.intercalate "," (listed.map quoteName) ++ ") VALUES "
          ++ gridText (grid 1 listed rows) ++ clauseText " RETURNING " (1 + ps.length) returning ++ ";",
        ps ++ clauseParams returning⟩) ∧
    ∀ s, i.compile = .ok s → ∀ f ∈ returning, f.Balanced := by
  intro i
  have hrows : i.clauses.rows ≠ [] := mt List.map_eq_nil_iff.1 hne
  have hbound : Param.ofValues (i.clauses.rows.flatMap boundValues) = .ok ps := by
    rw [← hps, givenValues, List.flatMap_map]
    simp only [boundValues_cells]
  have hnames := mapM_columnName.2 hw
  constructor
  · intro hr
    have hstatement := insertStatement_of_supported t.name hrows hbound hnames hr
    rw [show i.clauses.rows = rows.map fun row => listed.map fun n => (row.column? n).getD .default from rfl,
      List.map_map] at hstatement
    refine hstatement.trans ?_
    rw [← numbered_rows]
    rfl
  · rintro s hs f hf
    obtain rfl := Option.mem_def.1 hf
    obtain ⟨-, fs, names, hfs, -, hfinish⟩ := (insertStatement_eq_ok t.name).1 hs
    have hparts : insertParts t.name names fs (some f) =
        (insertParts t.name names fs none ++ [.plain " RETURNING "]) ++ [f] := rfl
    rw [hparts] at hfinish
    refine balanced_of_finish ?_ hfinish
    rw [List.forall_mem_append, List.forall_mem_singleton]
    exact ⟨balanced_insertParts t.name names (balanced_rows hfs) (by simp), Fragment.balanced_plain.2 (by decide)⟩

/-! ### Rows that are refused -/

/-- Setting the rows as it is done, one field of the insertion after the other: the columns come before the cells. -/
def setValues (records : Value) : Task Insertion Unit := do
  let i ← get
  let rows ← Task.ofExcept ((recordsOf records).mapM i.table.rowOf)
  let written := i.writtenWithout (i.generatedKey? rows)
  set { i with written := written }
  let grid ← Task.ofExcept (rows.mapM (cells written))
  set { i with written := written, clauses.rows := grid, built := none }

/-- Nothing goes wrong once the columns are set, so rows that are refused leave the insertion as it was. -/
theorem run_setValues (h : i.columns.map Value.toText? = names.map some) (records : Value) :
    (setValues records).run i = match i.values records with
      | .ok j => (.ok (), j)
      | .error e => (.error e, i) := by
  have hvalues : i.values records = (recordsOf records).mapM i.table.rowOf >>= fun rows =>
      rows.mapM (cells (i.writtenWithout (i.generatedKey? rows))) >>= fun grid =>
        .ok { i with written := i.writtenWithout (i.generatedKey? rows), clauses.rows := grid, built := none } := by
    cases records <;> rfl
  rw [hvalues, setValues]
  refine (Task.run_bind_get i _).trans ?_
  cases hrows : (recordsOf records).mapM i.table.rowOf with
  | error e => rfl
  | ok rows =>
    have hgrid := mapM_cells (writtenWithout_eq h (i.generatedKey? rows)) rows
    dsimp only
    rw [Task.ofExcept_ok_bind, Outcome.ok_bind, hgrid]
    rfl

end Insertion

/-! ### The whole -/

namespace Builder

variable {t : Table} {columns : Option (List Value)} {names : List String}

/-- What the last successful request has set. -/
theorem latest_of_last {α : Type} {f : Request → Option α} {before after : List Request} {r : Request} {a : α}
    (hr : f r = some a) (hafter : ∀ r' ∈ after, f r' = none) : latest f (before ++ r :: after) = some a := by
  rw [latest, List.filterMap_append, List.filterMap_cons_some hr, List.filterMap_eq_nil_iff.2 hafter]
  simp

theorem columns_ne_nil (ht : t.check = .ok t) (hc : columns ≠ some []) : (Insertion.into t columns).columns ≠ [] := by
  cases columns with
  | some vs => exact fun h => hc (congrArg some h)
  | none => exact fun h => (Table.columns_of_check ht).2 (List.map_eq_nil_iff.1 h)

/-- **Cells of insertions.** However an insertion into distinct columns has come to its rows and its returning clause,
the statement lists the columns, without a key column that all rows leave to the database, and has for every row and
listed column a cell: the default, or the mark that belongs to the parameter of the row's value for the column. The
marks of the returning clause follow. The statement can be built just when this clause is balanced. Rows that are
refused leave the insertion as it was. A list of columns that is given has some. -/
theorem inserts_cells (ht : t.check = .ok t) (hc : columns ≠ some [])
    (hnames : (Insertion.into t columns).columns.map Value.toText? = names.map some) (hn : names.Nodup) :
    (∀ (before after : List Request) (records : Value) (rows : List Dict) (returning : Option Fragment),
      (Insertion.recordsOf records).mapM t.rowOf = .ok rows → rows ≠ [] →
      (∀ row ∈ rows, ∀ c ∈ names, ∀ v, row.given? c = some v → ∃ p, Param.ofValue v = .ok p) →
      (∀ later, .values later ∈ after → ∃ e, (Insertion.into t columns).values later = .error e) →
      latest Request.returned? (before ++ .values records :: after) = returning.map .ok →
      let b := (Opening.insertion t columns).builder.after (before ++ .values records :: after)
      ∃ listed cells ps, t.Lists names rows listed ∧ Insertion.LaidOut listed rows cells ps ∧
        ((∀ f ∈ returning, f.Balanced) → b.statement = .ok
          ⟨"INSERT INTO " ++ quoteName t.name ++ " (" ++ String.intercalate "," (listed.map quoteName) ++ ") VALUES "
              ++ Insertion.gridText cells ++ clauseText " RETURNING " (1 + ps.length) returning ++ ";",
            ps ++ clauseParams returning⟩) ∧
        ∀ s, b.statement = .ok s → ∀ f ∈ returning, f.Balanced) ∧
    ∀ (i : Insertion) (records : Value), i.columns = (Insertion.into t columns).columns →
      (Insertion.setValues records).run i = match i.values records with
        | .ok j => (.ok (), j)
        | .error e => (.error e, i) := by
  constructor
  · intro before after records rows returning hrows hne hsupported hafter hreturned b
    let start := Insertion.into t columns
    let listed := names.filter fun n => start.generatedKey? rows ≠ some n
    let written := start.writtenWithout (start.generatedKey? rows)
    let grid := rows.map fun row => listed.map fun n => (row.column? n).getD .default
    have hwritten : written.map Value.toText? = listed.map some := Insertion.writtenWithout_eq hnames _
    have hvalues : start.values records = .ok { start with written, clauses.rows := grid, built := none } :=
      Insertion.values_eq_ok.2 ⟨rows, grid, hrows, Insertion.mapM_cells hwritten rows, rfl⟩
    -- requests that are refused do not count, so these rows are the last ones that were set
    have hlatest : latest (Request.values? start) (before ++ .values records :: after) =
        some { start with written, clauses.rows := grid, built := none } := by
      refine latest_of_last (by rw [Request.values?, hvalues]; rfl) fun r hr => ?_
      cases r with
      | values later =>
        obtain ⟨e, he⟩ := hafter later hr
        rw [Request.values?, he]
        rfl
      | _ => rfl
    have hstatement : b.statement =
        Insertion.compile ⟨t, start.columns, written, ⟨grid, returning.map .ok⟩, none⟩ := by
      rw [(coherent_after _ _).statement_eq, ← compile_bare, bare_after, Opening.settled, Insertion.settled, hlatest,
        hreturned]
      rfl
    obtain ⟨ps, hps⟩ : ∃ ps, Param.ofValues (Insertion.givenValues listed rows) = .ok ps := by
      refine Outcome.exists_mapM_eq_ok.2 fun v hv => ?_
      obtain ⟨row, hrow, hgiven⟩ := List.mem_flatMap.1 hv
      obtain ⟨c, hmem, hv⟩ := List.mem_filterMap.1 hgiven
      exact hsupported row hrow c (List.mem_filter.1 hmem).1 v hv
    have hnil : names ≠ [] := by
      rintro rfl
      exact columns_ne_nil ht hc (List.map_eq_nil_iff.1 hnames)
    obtain ⟨hbuilt, hbalanced⟩ := Insertion.compile_rows hwritten hne hps
    rw [hstatement]
    exact ⟨listed, Insertion.grid 1 listed rows, ps, Insertion.lists_written hnames hnil hn rows,
      Insertion.laidOut_grid hps, hbuilt, hbalanced⟩
  · intro i records hi
    exact Insertion.run_setValues (hi ▸ hnames) records

/-- People with a key that the database makes. -/
def people : Table := ⟨"people", ["id"], ["id", "name", "age"], ["id", "name", "age"], .copy, none⟩

/-- A person whose key is null and whose age is missing, and one without a key whose name is left to the default. -/
def twoPeople : List Dict :=
  [[(.text "id", .null), (.text "name", .text "Ada")], [(.text "age", .integer 36), (.text "name", .default)]]

example : Insertion.gridText (Insertion.grid 1 ["name", "age"] twoPeople) = "($1,DEFAULT),(DEFAULT,$2)" := by
  decide +kernel

theorem inserts_cells_people :
    let records : Value := .list (twoPeople.map (.dict none))
    let returned : Fragment := ⟨"id, ?", [⟨.integer, .integer 7⟩]⟩
    let b := (Opening.insertion people none).builder.after [.returning (.ok returned), .values records]
    people.check = .ok people ∧ people.Lists people.insertColumns twoPeople ["name", "age"] ∧ ∃ cells ps,
      Insertion.LaidOut ["name", "age"] twoPeople cells ps ∧ b.statement = .ok
        ⟨"INSERT INTO \"people\" (\"name\",\"age\") VALUES " ++ Insertion.gridText cells ++
            clauseText " RETURNING " (1 + ps.length) (some returned) ++ ";",
          ps ++ [⟨.integer, .integer 7⟩]⟩ := by
  intro records returned b
  have hcheck : people.check = .ok people := by rfl
  have hsupported : ∀ row ∈ twoPeople, ∀ c ∈ people.insertColumns, ∀ v, row.given? c = some v →
      ∃ p, Param.ofValue v = .ok p := by
    intro row hrow c hc v hv
    have hgiven : Insertion.givenValues people.insertColumns twoPeople = [.null, .text "Ada", .integer 36] := by
      simp [Insertion.givenValues, people, twoPeople, Dict.given?, Dict.column?_cons, Value.toText?, Dict.column?_nil]
    have hbound : ∃ ps, Param.ofValues (Insertion.givenValues people.insertColumns twoPeople) = .ok ps := by
      rw [hgiven]
      exact ⟨_, rfl⟩
    exact Outcome.exists_mapM_eq_ok.1 hbound v (List.mem_flatMap.2 ⟨row, hrow, List.mem_filterMap.2 ⟨c, hc, hv⟩⟩)
  have hcolumns : (Insertion.into people none).columns.map Value.toText? = people.insertColumns.map some := rfl
  obtain ⟨hcells, -⟩ := inserts_cells hcheck (Option.some_ne_none _).symm hcolumns (by decide)
  obtain ⟨listed, cells, ps, hlists, hcells, hbuilt, -⟩ := hcells [.returning (.ok returned)] [] records twoPeople
    (some returned) rfl (by decide) hsupported (by simp) rfl
  obtain rfl : listed = ["name", "age"] := by
    have hout : "id" ∉ listed := (hlists.left_out "id" (by decide)).2 ⟨rfl, by decide, by
      simp [twoPeople, Dict.column?_cons, Value.toText?, Dict.column?_nil]⟩
    have hname := hlists.kept "name" (by decide) _ List.mem_cons_self (.text "Ada")
      (by simp [Dict.column?_cons, Value.toText?]) Value.noConfusion
    have hage := hlists.kept "age" (by decide) _ (List.mem_cons_of_mem _ List.mem_cons_self) (.integer 36)
      (by simp [Dict.column?_cons, Value.toText?]) Value.noConfusion
    have hall : ∀ l ∈ people.insertColumns.sublists, "id" ∉ l → "name" ∈ l → "age" ∈ l → l = ["name", "age"] := by
      decide
    exact hall listed (List.mem_sublists.2 hlists.sublist) hout hname hage
  refine ⟨hcheck, hlists, cells, ps, hcells, hbuilt fun f hf => ?_⟩
  obtain rfl := Option.mem_some.1 hf
  exact ⟨by decide, by decide⟩

end Builder

end RecordSql
