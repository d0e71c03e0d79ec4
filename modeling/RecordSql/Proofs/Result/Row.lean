import Mathlib.Data.List.Induction
import RecordSql.Proofs.Outcome
import RecordSql.Result.Plan

/-!
# Columns of rows

Which columns of a row its parts have. A plan that lists columns depends on nothing but these.
-/

namespace RecordSql

theorem isPrefixOf?_eq_some {α : Type} [BEq α] [LawfulBEq α] {l l' rest : List α} :
    l.isPrefixOf? l' = some rest ↔ l' = l ++ rest := by
  induction l generalizing l' with
  | nil => simp [List.isPrefixOf?, eq_comm]
  | cons a l ih =>
    cases l' with
    | nil => simp [List.isPrefixOf?]
    | cons b l' =>
      rw [List.isPrefixOf?]
      by_cases h : a = b
      · simp [h, ih]
      · simp [h, Ne.symm h]

theorem afterLabel?_eq_some {label name rest : String} : afterLabel? label name = some rest ↔ name = label ++ rest := by
  rw [afterLabel?, Option.map_eq_some_iff]
  constructor
  · rintro ⟨cs, hcs, rfl⟩
    rw [← String.toList_inj, isPrefixOf?_eq_some.1 hcs, String.toList_append, String.toList_ofList]
  · rintro rfl
    exact ⟨rest.toList, isPrefixOf?_eq_some.2 String.toList_append, String.ofList_toList⟩

theorem eraseDups_concat (names : List String) (name : String) :
    (names ++ [name]).eraseDups = if name ∈ names then names.eraseDups else names.eraseDups ++ [name] := by
  rw [List.eraseDups_append]
  by_cases h : name ∈ names <;> simp [List.removeAll, List.eraseDups_cons, h]

theorem nodup_eraseDups (names : List String) : names.eraseDups.Nodup := by
  induction names using List.reverseRecOn with
  | nil => simp
  | append_singleton names name ih =>
    rw [eraseDups_concat]
    split
    · exact ih
    · rename_i hnew
      refine List.nodup_append.2 ⟨ih, by simp, fun f hf g hg => ?_⟩
      rintro rfl
      exact hnew (List.mem_singleton.1 hg ▸ List.mem_eraseDups.1 hf)

/-- A column name that means the queried table itself. -/
def Unreserved (column : String) : Prop := afterLabel? relationsLabel column = none ∧ column ≠ relationKey

instance (column : String) : Decidable (Unreserved column) :=
  inferInstanceAs (Decidable (afterLabel? relationsLabel column = none ∧ column ≠ relationKey))

namespace Row

variable {row row' : Row} {column name : String} {columns : List String} {v : Value}

theorem get?_cons (k : String) (w : Value) (row : Row) (column : String) :
    Row.get? ((k, w) :: row) column = if column = k then some w else row.get? column := by
  rw [Row.get?, List.lookup_cons]
  by_cases h : column = k
  · rw [beq_iff_eq.2 h, if_pos h]
  · rw [beq_false_of_ne h, if_neg h]
    rfl

theorem get?_set (row : Row) (name : String) (v : Value) (column : String) :
    (row.set name v).get? column = if column = name then some v else row.get? column := by
  induction row with
  | nil =>
    rw [Row.set, get?_cons]
  | cons e row ih =>
    obtain ⟨k, w⟩ := e
    rw [Row.set]
    by_cases hk : k = name
    · rw [if_pos hk, get?_cons, get?_cons, hk]
      split <;> rfl
    · rw [if_neg hk, get?_cons, get?_cons, ih]
      by_cases hc : column = k
      · rw [if_pos hc, if_pos hc, if_neg (hc ▸ hk)]
      · rw [if_neg hc, if_neg hc]

theorem base_cons (k : String) (w : Value) (row : Row) : Row.base ((k, w) :: row) =
    if (afterLabel? relationsLabel k).isNone && k != relationKey then (k, w) :: row.base else row.base :=
  List.filter_cons

/-- The columns of the queried table keep their values. -/
theorem get?_base (h : Unreserved column) (row : Row) : row.base.get? column = row.get? column := by
  induction row with
  | nil => rfl
  | cons e row ih =>
    obtain ⟨k, w⟩ := e
    rw [base_cons, get?_cons]
    by_cases hc : column = k
    · have hk : ((afterLabel? relationsLabel k).isNone && k != relationKey) = true := by
        rw [← hc, h.1]
        simpa using h.2
      rw [if_pos hc, if_pos hk, get?_cons, if_pos hc]
    · rw [if_neg hc]
      split
      · rw [get?_cons, if_neg hc, ih]
      · exact ih

theorem get?_map (f : String → Value) (h : column ∈ columns) :
    Row.get? (columns.map fun c => (c, f c)) column = some (f column) := by
  induction columns with
  | nil => cases h
  | cons c columns ih =>
    rw [List.map_cons, get?_cons]
    by_cases hc : column = c
    · rw [if_pos hc, hc]
    · rw [if_neg hc]
      exact ih ((List.mem_cons.1 h).resolve_left hc)

/-- Picking depends on the picked columns only. -/
theorem pick_congr (h : ∀ c ∈ columns, row.get? c = row'.get? c) : row.pick columns = row'.pick columns := by
  rw [Row.pick, Row.pick]
  refine List.foldl_ext _ _ _ fun out c hc => ?_
  rw [h c hc]

theorem base_append (row row' : Row) : Row.base (row ++ row') = row.base ++ row'.base := List.filter_append _ _

/-- Names occur once, so the value under a name is the one that the row has with it. -/
theorem get?_eq_some (hn : (row.map (·.1)).Nodup) : row.get? name = some v ↔ (name, v) ∈ row := by
  induction row with
  | nil => simp [Row.get?]
  | cons e row ih =>
    obtain ⟨k, w⟩ := e
    obtain ⟨hk, hrow⟩ := List.nodup_cons.1 hn
    rw [get?_cons, List.mem_cons, Prod.mk.injEq]
    by_cases h : name = k
    · have hnot : (name, v) ∉ row := by
        intro hm
        have hmem : name ∈ row.map (·.1) := List.mem_map.2 ⟨_, hm, rfl⟩
        exact hk (h ▸ hmem)
      rw [if_pos h, Option.some_inj, or_iff_left hnot, and_iff_right h, eq_comm]
    · rw [if_neg h, ih hrow, or_iff_right fun he => h he.1]

theorem mem_of_get? (h : row.get? name = some v) : (name, v) ∈ row := by
  obtain ⟨front, back, hsplit, -⟩ := List.lookup_eq_some_iff.1 h
  simp [hsplit]

/-- The order of the columns does not matter to what is under a name. -/
theorem get?_perm (hn : (row.map (·.1)).Nodup) (h : row.Perm row') (name : String) :
    row.get? name = row'.get? name := by
  have hn' : (row'.map (·.1)).Nodup := (h.map _).nodup_iff.1 hn
  ext v
  rw [get?_eq_some hn, get?_eq_some hn', h.mem_iff]

theorem labelled_cons (k : String) (w : Value) (row : Row) (label : String) : Row.labelled ((k, w) :: row) label =
    ((afterLabel? label k).map (·, w)).toList ++ row.labelled label := by
  cases h : afterLabel? label k <;> simp [labelled, h]

/-- The value behind a label is the one under the label with the name. -/
theorem get?_labelled (row : Row) (label name : String) :
    (row.labelled label).get? name = row.get? (label ++ name) := by
  induction row with
  | nil => rfl
  | cons e row ih =>
    obtain ⟨k, w⟩ := e
    rw [labelled_cons, get?_cons]
    cases hrest : afterLabel? label k with
    | none =>
      have hne : label ++ name ≠ k := fun hk => by
        rw [afterLabel?_eq_some.2 hk.symm] at hrest
        cases hrest
      rw [if_neg hne]
      exact ih
    | some rest =>
      obtain rfl := afterLabel?_eq_some.1 hrest
      show Row.get? ((rest, w) :: Row.labelled row label) name = _
      rw [get?_cons, ih]
      exact if_congr (by rw [← String.toList_inj, ← String.toList_inj]; simp) rfl rfl

theorem mem_labelled {label : String} (hn : (row.map (·.1)).Nodup) :
    (name, v) ∈ row.labelled label ↔ row.get? (label ++ name) = some v := by
  rw [get?_eq_some hn, labelled, List.mem_filterMap]
  constructor
  · rintro ⟨e, he, hafter⟩
    obtain ⟨rest, hrest, hpair⟩ := Option.map_eq_some_iff.1 hafter
    obtain ⟨rfl, rfl⟩ := Prod.mk.inj hpair
    rwa [← afterLabel?_eq_some.1 hrest]
  · intro hmem
    exact ⟨_, hmem, by simp only [afterLabel?_eq_some.2 rfl, Option.map_some]⟩

/-- The cells of columns, each under its name, as far as the row has them. A label says where the row has a column. -/
def cells (row : Row) (label : String → String) (columns : List String) : Row :=
  columns.filterMap fun column => (row.get? (label column)).map (column, ·)

theorem mem_cells {label : String → String} :
    (column, v) ∈ row.cells label columns ↔ column ∈ columns ∧ row.get? (label column) = some v := by
  rw [cells, List.mem_filterMap]
  constructor
  · rintro ⟨c, hc, hcell⟩
    obtain ⟨w, hw, hpair⟩ := Option.map_eq_some_iff.1 hcell
    obtain ⟨rfl, rfl⟩ := Prod.mk.inj hpair
    exact ⟨hc, hw⟩
  · rintro ⟨hc, hv⟩
    exact ⟨column, hc, by rw [hv]; rfl⟩

theorem cells_congr {label label' : String → String}
    (h : ∀ c ∈ columns, row.get? (label c) = row'.get? (label' c)) :
    row.cells label columns = row'.cells label' columns :=
  List.filterMap_congr fun c hc => by rw [h c hc]

theorem set_of_not_mem (h : name ∉ row.map (·.1)) (v : Value) : row.set name v = row ++ [(name, v)] := by
  induction row with
  | nil => rfl
  | cons e row ih =>
    obtain ⟨k, w⟩ := e
    rw [List.map_cons, List.mem_cons, not_or] at h
    rw [Row.set, if_neg (Ne.symm h.1), ih h.2]
    rfl

theorem pick_concat (row : Row) (columns : List String) (column : String) : row.pick (columns ++ [column]) =
    (row.get? column).elim (row.pick columns) fun v => (row.pick columns).set column v := by
  simp only [pick, List.foldl_append, List.foldl_cons, List.foldl_nil]
  cases row.get? column <;> rfl

/-- Distinct columns are picked in their order. -/
theorem pick_eq_cells (row : Row) (hn : columns.Nodup) : row.pick columns = row.cells id columns := by
  -- from the end, where the last column is set at the end of what has been picked
  induction columns using List.reverseRecOn with
  | nil => rfl
  | append_singleton columns c ih =>
    obtain ⟨hcolumns, -, hc⟩ := List.nodup_append.1 hn
    have hnew : c ∉ (row.cells id columns).map (·.1) := by
      intro hmem
      obtain ⟨e, he, rfl⟩ := List.mem_map.1 hmem
      exact hc _ (mem_cells.1 he).1 _ (List.mem_singleton_self _) rfl
    rw [pick_concat, ih hcolumns, cells, cells, List.filterMap_append, ← cells]
    cases h : row.get? c with
    | none => simp [h]
    | some v => simp [h, set_of_not_mem hnew]

end Row

theorem Plan.visible_of_columns {p : Plan} (hne : p.columns ≠ []) (row : Row) : p.visible row = row.pick p.columns :=
  if_neg (mt List.isEmpty_iff.1 hne)

/-- A plan with columns depends on these only. -/
theorem Plan.run_congr {p : Plan} {row row' : Row} (hne : p.columns ≠ [])
    (h : ∀ c ∈ p.columns, row.get? c = row'.get? c) : p.run row = p.run row' := by
  rw [run, run, visible_of_columns hne, visible_of_columns hne, Row.pick_congr h]

end RecordSql
