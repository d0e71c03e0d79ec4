import RecordSql.Proofs.Sql.Clauses
import RecordSql.Sql.Mark

/-!
# Values leave no trace in a statement text

A `Draft` is a fragment as a caller writes it down, a `StatementDraft` a statement of such fragments. What a draft is
built to has two sides that do not meet: a text, which `rendered` gives without a look at any value, and the parameters
of `values`, from left to right. Drafts of the same shape differ in their values only, so they have one text.
-/

namespace RecordSql

/-- A fragment as a caller writes it. -/
inductive Draft
  /-- Text as it is, with the values of its marks. -/
  | raw (text : String) (values : List Value)
  | condition (tree : ConditionTree)
  /-- Fragments with a keyword between them, in parentheses. -/
  | group (keyword : String) (items : List Draft)
  | join (separator : String) (items : List Draft)

/-- A statement as a caller writes it. -/
inductive StatementDraft
  | select (table : String) (columns join : Option Draft) (items : List String) (joins : List Draft)
      (filter : Option Draft)
  | insert (table : String) (columns : List Value) (rows : List (List Value)) (returning : Option Draft)
  | update (table : String) (assignments : Dict) (filter returning : Option Draft)

/-! ### Texts of statements -/

/-- The text of a clause behind its keyword. -/
def clauseSql (keyword : String) (c : Option String) : String := c.elim "" (keyword ++ ·)

/-- The text of a query before its marks are numbered. -/
def selectSql (table : String) (columns join : Option String) (items joins : List String) (filter : Option String) :
    String :=
  "SELECT " ++ columns.getD (quoteName table ++ ".*")
    ++ (if items.isEmpty then "" else ", " ++ String.intercalate ", " items) ++ " FROM " ++ quoteName table
    ++ clauseSql " " join ++ String.join (joins.map (" " ++ ·)) ++ clauseSql " WHERE " filter

/-- The text of an insertion before its marks are numbered. -/
def insertSql (table : String) (names rows : List String) (returning : Option String) : String :=
  "INSERT INTO " ++ quoteName table ++ " (" ++ String.intercalate "," (names.map quoteName) ++ ") VALUES "
    ++ String.intercalate "," rows ++ clauseSql " RETURNING " returning

/-- The text of an update before its marks are numbered. -/
def updateSql (table : String) (names : List String) (filter returning : Option String) : String :=
  "UPDATE " ++ quoteName table ++ " SET " ++ setText names ++ clauseSql " WHERE " filter
    ++ clauseSql " RETURNING " returning

namespace Fragment

theorem text_join_empty (fs : List Fragment) : (join "" fs).text = String.join (fs.map text) := by
  induction fs with
  | nil => rfl
  | cons f fs ih => rw [text_join_empty_cons, ih, List.map_cons, String.join_cons]

theorem sql_clauseParts (keyword : String) (c : Option Fragment) :
    String.join ((clauseParts keyword c).map text) = clauseSql keyword (c.map text) := by
  cases c <;> simp [clauseParts, clauseSql]

theorem text_selectParts (table : String) (columns join filter : Option Fragment) (items : List String)
    (joins : List Fragment) : (Fragment.join "" (selectParts table columns join filter items joins)).text =
      selectSql table (columns.map text) (join.map text) items (joins.map text) (filter.map text) := by
  have hjoins : String.join ((joins.flatMap fun f => [plain " ", f]).map text)
      = String.join ((joins.map text).map (" " ++ ·)) := by
    induction joins with
    | nil => rfl
    | cons f fs ih =>
      simp only [List.flatMap_cons, List.cons_append, List.nil_append, List.map_cons, String.join_cons, text_plain, ih,
        String.append_assoc]
  have hcolumns : (columns.getD (.plain (quoteName table ++ ".*"))).text
      = (columns.map text).getD (quoteName table ++ ".*") := by
    cases columns <;> rfl
  delta selectSql
  rw [text_join_empty, selectParts, selectHead]
  simp only [List.map_append, String.join_append, sql_clauseParts, hjoins]
  split <;> simp [hcolumns, String.append_assoc]

theorem text_insertParts (table : String) (names : List String) (rows : List Fragment) (returning : Option Fragment) :
    (Fragment.join "" (insertParts table names rows returning)).text =
      insertSql table names (rows.map text) (returning.map text) := by
  delta insertSql
  rw [text_join_empty, insertParts, List.map_append, String.join_append, sql_clauseParts]
  simp [Fragment.join, String.append_assoc]

theorem text_updateParts (table : String) (names : List String) (ps : List Param) (filter returning : Option Fragment) :
    (Fragment.join "" (updateParts table names ps filter returning)).text =
      updateSql table names (filter.map text) (returning.map text) := by
  delta updateSql
  rw [text_join_empty, updateParts]
  simp only [List.map_append, String.join_append, sql_clauseParts]
  simp [String.append_assoc]

end Fragment

/-! ### Conditions -/

namespace ConditionTree

mutual

/-- The text of a tree, with a mark for every value. -/
def rendered : ConditionTree → String
  | .compare column operator _ => column ++ " " ++ operator ++ " ?"
  | .compareColumns left operator right => left ++ " " ++ operator ++ " " ++ right
  | .member column values => column ++ " IN (" ++ marks values.length ++ ")"
  | .allOf items => "(" ++ String.intercalate " AND " (renderedAll items) ++ ")"
  | .anyOf items => "(" ++ String.intercalate " OR " (renderedAll items) ++ ")"

def renderedAll : List ConditionTree → List String
  | [] => []
  | t :: ts => rendered t :: renderedAll ts

end

mutual

/-- The same leaves in the same groups: columns, operators and numbers of values are the same, values are not asked
for. -/
def SameShape : ConditionTree → ConditionTree → Prop
  | .compare c o _, .compare c' o' _ => c = c' ∧ o = o'
  | .compareColumns l o r, .compareColumns l' o' r' => l = l' ∧ o = o' ∧ r = r'
  | .member c vs, .member c' vs' => c = c' ∧ vs.length = vs'.length
  | .allOf ts, .allOf us => SameShapeAll ts us
  | .anyOf ts, .anyOf us => SameShapeAll ts us
  | _, _ => False

def SameShapeAll : List ConditionTree → List ConditionTree → Prop
  | [], [] => True
  | t :: ts, u :: us => SameShape t u ∧ SameShapeAll ts us
  | _, _ => False

end

mutual

theorem build_eq_ok : ∀ {t : ConditionTree} {c : Condition}, t.build = .ok c →
    c.text = t.rendered ∧ Param.ofValues t.values = .ok c.params
  | .compare _ _ _, _, h => Condition.compare_eq_ok h
  | .compareColumns _ _ _, _, h => by
    cases h
    exact ⟨rfl, rfl⟩
  | .member _ _, _, h => Condition.member_eq_ok h
  | .allOf items, c, h => by
    obtain ⟨cs, hcs, h⟩ := Outcome.bind_eq_ok.1 h
    obtain ⟨ht, hp⟩ := buildAll_eq_ok hcs
    obtain ⟨htext, hparams⟩ := Condition.group_eq_ok h
    exact ⟨by rw [htext, ht]; rfl, by rw [hparams]; exact hp⟩
  | .anyOf items, c, h => by
    obtain ⟨cs, hcs, h⟩ := Outcome.bind_eq_ok.1 h
    obtain ⟨ht, hp⟩ := buildAll_eq_ok hcs
    obtain ⟨htext, hparams⟩ := Condition.group_eq_ok h
    exact ⟨by rw [htext, ht]; rfl, by rw [hparams]; exact hp⟩

theorem buildAll_eq_ok : ∀ {ts : List ConditionTree} {cs : List Condition}, buildAll ts = .ok cs →
    cs.map Fragment.text = renderedAll ts ∧ Param.ofValues (valuesAll ts) = .ok (cs.flatMap Fragment.params)
  | [], _, h => by
    cases h
    exact ⟨rfl, rfl⟩
  | t :: ts, _, h => by
    obtain ⟨c, hc, h⟩ := Outcome.bind_eq_ok.1 h
    obtain ⟨cs, hcs, h⟩ := Outcome.bind_eq_ok.1 h
    cases h
    obtain ⟨h1, h2⟩ := build_eq_ok hc
    obtain ⟨h3, h4⟩ := buildAll_eq_ok hcs
    exact ⟨by rw [List.map_cons, h1, h3]; rfl, Param.ofValues_append.2 ⟨_, _, h2, h4, rfl⟩⟩

end

mutual

theorem rendered_eq : ∀ {t u : ConditionTree}, t.SameShape u → t.rendered = u.rendered
  | .compare _ _ _, .compare _ _ _, ⟨rfl, rfl⟩ => rfl
  | .compareColumns _ _ _, .compareColumns _ _ _, ⟨rfl, rfl, rfl⟩ => rfl
  | .member _ _, .member _ _, ⟨rfl, hl⟩ => by rw [rendered, rendered, hl]
  | .allOf _, .allOf _, h => by rw [rendered, rendered, renderedAll_eq h]
  | .anyOf _, .anyOf _, h => by rw [rendered, rendered, renderedAll_eq h]

theorem renderedAll_eq : ∀ {ts us : List ConditionTree}, SameShapeAll ts us → renderedAll ts = renderedAll us
  | [], [], _ => rfl
  | _ :: _, _ :: _, ⟨h, hs⟩ => by rw [renderedAll, renderedAll, rendered_eq h, renderedAll_eq hs]

end

end ConditionTree

/-! ### Fragments -/

namespace Draft

mutual

/-- The fragment that is written down. -/
def build : Draft → Except Failure Fragment
  | .raw text values => Fragment.raw text values
  | .condition tree => tree.build
  | .group keyword items => do Condition.group keyword (← buildAll items)
  | .join separator items => return Fragment.join separator (← buildAll items)

def buildAll : List Draft → Except Failure (List Fragment)
  | [] => .ok []
  | d :: ds => do
    let f ← build d
    return f :: (← buildAll ds)

end

mutual

/-- The values, from left to right. -/
def values : Draft → List Value
  | .raw _ values => values
  | .condition tree => tree.values
  | .group _ items | .join _ items => valuesAll items

def valuesAll : List Draft → List Value
  | [] => []
  | d :: ds => values d ++ valuesAll ds

end

mutual

/-- The text of the fragment, with a mark for every value. -/
def rendered : Draft → String
  | .raw text _ => text
  | .condition tree => tree.rendered
  | .group keyword items => "(" ++ String.intercalate (" " ++ keyword ++ " ") (renderedAll items) ++ ")"
  | .join separator items => String.intercalate separator (renderedAll items)

def renderedAll : List Draft → List String
  | [] => []
  | d :: ds => rendered d :: renderedAll ds

end

mutual

/-- The same texts in the same places, and conditions of the same shape; the values are not asked for. -/
def SameShape : Draft → Draft → Prop
  | .raw text _, .raw text' _ => text = text'
  | .condition t, .condition u => t.SameShape u
  | .group k ds, .group k' es => k = k' ∧ SameShapeAll ds es
  | .join s ds, .join s' es => s = s' ∧ SameShapeAll ds es
  | _, _ => False

def SameShapeAll : List Draft → List Draft → Prop
  | [], [] => True
  | d :: ds, e :: es => SameShape d e ∧ SameShapeAll ds es
  | _, _ => False

end

mutual

theorem build_eq_ok : ∀ {d : Draft} {f : Fragment}, d.build = .ok f →
    f.text = d.rendered ∧ Param.ofValues d.values = .ok f.params
  | .raw _ _, _, h => by
    obtain ⟨ps, hp, rfl⟩ := Outcome.map_eq_ok.1 h
    exact ⟨rfl, hp⟩
  | .condition _, _, h => ConditionTree.build_eq_ok h
  | .group _ _, _, h => by
    obtain ⟨fs, hfs, h⟩ := Outcome.bind_eq_ok.1 h
    obtain ⟨ht, hp⟩ := buildAll_eq_ok hfs
    obtain ⟨htext, hparams⟩ := Condition.group_eq_ok h
    exact ⟨by rw [htext, ht]; rfl, by rw [hparams]; exact hp⟩
  | .join _ _, _, h => by
    obtain ⟨fs, hfs, h⟩ := Outcome.bind_eq_ok.1 h
    obtain ⟨ht, hp⟩ := buildAll_eq_ok hfs
    cases h
    exact ⟨by rw [Fragment.join, ht]; rfl, hp⟩

theorem buildAll_eq_ok : ∀ {ds : List Draft} {fs : List Fragment}, buildAll ds = .ok fs →
    fs.map Fragment.text = renderedAll ds ∧ Param.ofValues (valuesAll ds) = .ok (fs.flatMap Fragment.params)
  | [], _, h => by
    cases h
    exact ⟨rfl, rfl⟩
  | d :: ds, _, h => by
    obtain ⟨f, hf, h⟩ := Outcome.bind_eq_ok.1 h
    obtain ⟨fs, hfs, h⟩ := Outcome.bind_eq_ok.1 h
    cases h
    obtain ⟨h1, h2⟩ := build_eq_ok hf
    obtain ⟨h3, h4⟩ := buildAll_eq_ok hfs
    exact ⟨by rw [List.map_cons, h1, h3]; rfl, Param.ofValues_append.2 ⟨_, _, h2, h4, rfl⟩⟩

end

mutual

theorem rendered_eq : ∀ {d e : Draft}, d.SameShape e → d.rendered = e.rendered
  | .raw _ _, .raw _ _, rfl => rfl
  | .condition _, .condition _, h => ConditionTree.rendered_eq h
  | .group _ _, .group _ _, ⟨rfl, h⟩ => by rw [rendered, rendered, renderedAll_eq h]
  | .join _ _, .join _ _, ⟨rfl, h⟩ => by rw [rendered, rendered, renderedAll_eq h]

theorem renderedAll_eq : ∀ {ds es : List Draft}, SameShapeAll ds es → renderedAll ds = renderedAll es
  | [], [], _ => rfl
  | _ :: _, _ :: _, ⟨h, hs⟩ => by rw [renderedAll, renderedAll, rendered_eq h, renderedAll_eq hs]

end

/-! A clause that may be absent. -/

/-- The fragment of a clause. -/
def buildOf : Option Draft → Except Failure (Option Fragment)
  | none => .ok none
  | some d => d.build.map some

/-- The values of a clause. -/
def valuesOf (d : Option Draft) : List Value := d.elim [] values

theorem buildOf_eq_ok {d : Option Draft} {c : Option Fragment} (h : buildOf d = .ok c) :
    c.map Fragment.text = d.map rendered ∧ Param.ofValues (valuesOf d) = .ok (clauseParams c) := by
  cases d with
  | none =>
    cases h
    exact ⟨rfl, rfl⟩
  | some d =>
    obtain ⟨f, hf, rfl⟩ := Outcome.map_eq_ok.1 h
    obtain ⟨ht, hp⟩ := build_eq_ok hf
    exact ⟨congrArg some ht, hp⟩

theorem map_rendered_eq {d e : Option Draft} (h : Option.Rel SameShape d e) : d.map rendered = e.map rendered := by
  cases h with
  | none => rfl
  | some h => exact congrArg some (rendered_eq h)

end Draft

/-! ### Rows and columns -/

/-- Rows of the same width, with the column default in the same places. -/
def SameCells (row row' : List Value) : Prop := List.Forall₂ (fun v w => v = .default ↔ w = .default) row row'

theorem cellText_eq {v w : Value} (h : v = .default ↔ w = .default) : cellText v = cellText w := by
  by_cases hv : v = .default
  · rw [hv, h.1 hv]
  · have hother : ∀ {u : Value}, u ≠ .default → cellText u = "?" := by
      intro u hu
      cases u <;> simp_all [cellText]
    rw [hother hv, hother (hv ∘ h.2)]

theorem rowText_eq {row row' : List Value} (h : SameCells row row') : rowText row = rowText row' := by
  have hcells : row.map cellText = row'.map cellText := by
    induction h with
    | nil => rfl
    | cons hv _ ih => rw [List.map_cons, List.map_cons, cellText_eq hv, ih]
  rw [rowText, rowText, hcells]

theorem map_rowText_eq {rows rows' : List (List Value)} (h : List.Forall₂ SameCells rows rows') :
    rows.map rowText = rows'.map rowText := by
  induction h with
  | nil => rfl
  | cons hrow _ ih => rw [List.map_cons, List.map_cons, rowText_eq hrow, ih]

theorem insertRows_eq_ok {rows : List (List Value)} {fs : List Fragment} (h : rows.mapM insertRow = .ok fs) :
    fs.map Fragment.text = rows.map rowText ∧
      Param.ofValues (rows.flatMap boundValues) = .ok (fs.flatMap Fragment.params) := by
  induction rows generalizing fs with
  | nil =>
    cases h
    exact ⟨rfl, rfl⟩
  | cons row rows ih =>
    rw [Outcome.mapM_cons, insertRow_eq] at h
    obtain ⟨f, hf, h⟩ := Outcome.bind_eq_ok.1 h
    obtain ⟨ps, hp, rfl⟩ := Outcome.map_eq_ok.1 hf
    obtain ⟨fs, hfs, rfl⟩ := Outcome.map_eq_ok.1 h
    obtain ⟨ht, hps⟩ := ih hfs
    exact ⟨by rw [List.map_cons, ht, List.map_cons], Param.ofValues_append.2 ⟨_, _, hp, hps, rfl⟩⟩

/-- The names of those columns that have one. -/
def namesOf (columns : List Value) : List String := columns.filterMap Value.toText?

theorem columnNames_eq_ok {columns : List Value} {names : List String} (h : columns.mapM columnName = .ok names) :
    names = namesOf columns := by
  have hname : ∀ {v : Value} {name : String}, columnName v = .ok name → v.toText? = some name := by
    intro v name hv
    unfold columnName at hv
    split at hv <;> simp_all
  replace h := Outcome.mapM_eq_ok.1 h
  induction h with
  | nil => rfl
  | cons hv _ ih => rw [namesOf, List.filterMap_cons_some (hname hv), ← namesOf, ← ih]

/-! ### Statements -/

namespace StatementDraft

/-- The statement that is written down, its fragments built first. -/
def compile : StatementDraft → Except Failure Statement
  | .select table columns join items joins filter => do
    let columns ← Draft.buildOf columns
    let join ← Draft.buildOf join
    let filter ← Draft.buildOf filter
    let joins ← Draft.buildAll joins
    selectStatement table ⟨columns.map .ok, join.map .ok, filter.map .ok⟩ items joins
  | .insert table columns rows returning => do
    let returning ← Draft.buildOf returning
    insertStatement table columns ⟨rows, returning.map .ok⟩
  | .update table assignments filter returning => do
    let filter ← Draft.buildOf filter
    let returning ← Draft.buildOf returning
    updateStatement table ⟨assignments, filter.map .ok, returning.map .ok⟩

/-- The values to be bound, from left to right. -/
def values : StatementDraft → List Value
  | .select _ columns join _ joins filter =>
    Draft.valuesOf columns ++ Draft.valuesOf join ++ Draft.valuesAll joins ++ Draft.valuesOf filter
  | .insert _ _ rows returning => rows.flatMap boundValues ++ Draft.valuesOf returning
  | .update _ assignments filter returning =>
    assignments.map (·.2) ++ Draft.valuesOf filter ++ Draft.valuesOf returning

/-- The text before its marks are numbered, with a mark for every value. -/
def rendered : StatementDraft → String
  | .select table columns join items joins filter =>
    selectSql table (columns.map Draft.rendered) (join.map Draft.rendered) items (Draft.renderedAll joins)
      (filter.map Draft.rendered)
  | .insert table columns rows returning =>
    insertSql table (namesOf columns) (rows.map rowText) (returning.map Draft.rendered)
  | .update table assignments filter returning =>
    updateSql table (namesOf (assignments.map (·.1))) (filter.map Draft.rendered) (returning.map Draft.rendered)

/-- Statements that differ in bound values only. -/
def SameShape : StatementDraft → StatementDraft → Prop
  | .select table columns join items joins filter, .select table' columns' join' items' joins' filter' =>
    table = table' ∧ Option.Rel Draft.SameShape columns columns' ∧ Option.Rel Draft.SameShape join join' ∧
      items = items' ∧ Draft.SameShapeAll joins joins' ∧ Option.Rel Draft.SameShape filter filter'
  | .insert table columns rows returning, .insert table' columns' rows' returning' =>
    table = table' ∧ columns = columns' ∧ List.Forall₂ SameCells rows rows' ∧
      Option.Rel Draft.SameShape returning returning'
  | .update table assignments filter returning, .update table' assignments' filter' returning' =>
    table = table' ∧ assignments.map (·.1) = assignments'.map (·.1) ∧ Option.Rel Draft.SameShape filter filter' ∧
      Option.Rel Draft.SameShape returning returning'
  | _, _ => False

/-- What is compiled is the text, numbered, with the parameters of the values. -/
theorem compile_eq_ok {d : StatementDraft} {s : Statement} (h : d.compile = .ok s) :
    s.sql = numbered 1 (d.rendered ++ ";") ∧ Param.ofValues d.values = .ok s.params := by
  cases d with
  | select table columns join items joins filter =>
    obtain ⟨c, hc, h⟩ := Outcome.bind_eq_ok.1 h
    obtain ⟨j, hj, h⟩ := Outcome.bind_eq_ok.1 h
    obtain ⟨f, hf, h⟩ := Outcome.bind_eq_ok.1 h
    obtain ⟨js, hjs, h⟩ := Outcome.bind_eq_ok.1 h
    rw [selectStatement_eq] at h
    obtain ⟨-, -, rfl⟩ := Statement.finish_eq_ok.1 h
    obtain ⟨htc, hpc⟩ := Draft.buildOf_eq_ok hc
    obtain ⟨htj, hpj⟩ := Draft.buildOf_eq_ok hj
    obtain ⟨htf, hpf⟩ := Draft.buildOf_eq_ok hf
    obtain ⟨htjs, hpjs⟩ := Draft.buildAll_eq_ok hjs
    constructor
    · rw [Fragment.text_selectParts, htc, htj, htjs, htf]
      rfl
    · have hparams : (Fragment.join "" (selectParts table c j f items js)).params =
          clauseParams c ++ clauseParams j ++ js.flatMap Fragment.params ++ clauseParams f := by
        simp only [Fragment.join, selectParts, List.flatMap_append, params_selectHead, params_clauseParts, params_joins]
      rw [hparams, values]
      exact Param.ofValues_append.2
        ⟨_, _, Param.ofValues_append.2 ⟨_, _, Param.ofValues_append.2 ⟨_, _, hpc, hpj, rfl⟩, hpjs, rfl⟩, hpf, rfl⟩
  | insert table columns rows returning =>
    obtain ⟨r, hr, h⟩ := Outcome.bind_eq_ok.1 h
    obtain ⟨-, fs, names, hfs, hn, h⟩ := (insertStatement_eq_ok table).1 h
    obtain ⟨-, -, rfl⟩ := Statement.finish_eq_ok.1 h
    obtain ⟨htr, hpr⟩ := Draft.buildOf_eq_ok hr
    obtain ⟨htrows, hprows⟩ := insertRows_eq_ok hfs
    obtain rfl := columnNames_eq_ok hn
    constructor
    · rw [Fragment.text_insertParts, htrows, htr]
      rfl
    · have hparams : (Fragment.join "" (insertParts table (namesOf columns) fs r)).params =
          fs.flatMap Fragment.params ++ clauseParams r := by
        simp [Fragment.join, insertParts, params_clauseParts]
      rw [hparams, values]
      exact Param.ofValues_append.2 ⟨_, _, hprows, hpr, rfl⟩
  | update table assignments filter returning =>
    obtain ⟨f, hf, h⟩ := Outcome.bind_eq_ok.1 h
    obtain ⟨r, hr, h⟩ := Outcome.bind_eq_ok.1 h
    obtain ⟨-, names, ps, hn, hp, h⟩ := (updateStatement_eq_ok table).1 h
    obtain ⟨-, -, rfl⟩ := Statement.finish_eq_ok.1 h
    obtain ⟨htf, hpf⟩ := Draft.buildOf_eq_ok hf
    obtain ⟨htr, hpr⟩ := Draft.buildOf_eq_ok hr
    have hnames : names = namesOf (assignments.map (·.1)) := by
      refine columnNames_eq_ok ?_
      rw [List.mapM_map]
      exact hn
    constructor
    · rw [Fragment.text_updateParts, htf, htr, hnames]
      rfl
    · have hparams : (Fragment.join "" (updateParts table names ps f r)).params =
          ps ++ clauseParams f ++ clauseParams r := by
        simp [Fragment.join, updateParts, params_clauseParts]
      rw [hparams, values]
      exact Param.ofValues_append.2 ⟨_, _, Param.ofValues_append.2 ⟨_, _, hp, hpf, rfl⟩, hpr, rfl⟩

theorem SameShape.rendered_eq {d e : StatementDraft} (h : d.SameShape e) : d.rendered = e.rendered := by
  cases d <;> cases e
  case select.select =>
    obtain ⟨rfl, hc, hj, rfl, hjs, hf⟩ := h
    simp only [rendered, Draft.map_rendered_eq hc, Draft.map_rendered_eq hj, Draft.renderedAll_eq hjs,
      Draft.map_rendered_eq hf]
  case insert.insert =>
    obtain ⟨rfl, rfl, hrows, hr⟩ := h
    simp only [rendered, map_rowText_eq hrows, Draft.map_rendered_eq hr]
  case update.update =>
    obtain ⟨rfl, hkeys, hf, hr⟩ := h
    simp only [rendered, hkeys, Draft.map_rendered_eq hf, Draft.map_rendered_eq hr]
  all_goals exact h.elim

end StatementDraft

/-- **Noninterference.** Statements that differ in bound values only have one text, in every style, if both can be
compiled; and their values are their parameters, in order. -/
theorem noninterference {d e : StatementDraft} {s t : Statement} (h : d.SameShape e) (hd : d.compile = .ok s)
    (he : e.compile = .ok t) :
    s.sql = t.sql ∧ (∀ style, styled s.sql style = styled t.sql style) ∧
      Param.ofValues d.values = .ok s.params ∧ Param.ofValues e.values = .ok t.params := by
  obtain ⟨hs, hps⟩ := StatementDraft.compile_eq_ok hd
  obtain ⟨ht, hpt⟩ := StatementDraft.compile_eq_ok he
  have hsql : s.sql = t.sql := by rw [hs, ht, h.rendered_eq]
  exact ⟨hsql, fun style => by rw [hsql], hps, hpt⟩

/-- A text with quotes and marks in it, NULL and a truth value against a number, a member of an enumeration with an odd
name and a quote in bytes. -/
theorem noninterference_odd_values :
    let draft (a b c : Value) : StatementDraft := .select "t" none none [] []
      (some (.condition (.allOf [.compare "a" "=" a, .member "b" [b, c]])))
    let d := draft (.text "' OR '?' = $1 --") .null (.truth true)
    let e := draft (.integer 7) (.symbol none .plain "$1?" .null) (.bytes false [0x22])
    ∃ s t, d.compile = .ok s ∧ e.compile = .ok t ∧ s.sql = t.sql ∧
      (∀ style, styled s.sql style = styled t.sql style) ∧
      Param.ofValues d.values = .ok s.params ∧ Param.ofValues e.values = .ok t.params := by
  intro draft d e
  let condition := "(a = ? AND b IN (?,?))"
  let text := "SELECT \"t\".* FROM \"t\" WHERE " ++ condition ++ ";"
  have hfinish : ∀ p q r,
      Statement.finish (Fragment.join "" (selectParts "t" none none (some ⟨condition, [p, q, r]⟩) [] [])) =
        .ok ⟨numbered 1 text, [p, q, r]⟩ := by
    intro p q r
    have hclosed : Closed text := by decide +kernel
    have hmarks : marksOf text = 3 := by decide +kernel
    exact Statement.finish_eq_ok.2 ⟨hclosed, hmarks, rfl⟩
  have hd : d.compile = _ := (selectStatement_eq "t" none none (some ⟨condition, _⟩) [] []).trans
    (hfinish ⟨.text, .text "' OR '?' = $1 --"⟩ ⟨.null, .null⟩ ⟨.truth, .truth true⟩)
  have he : e.compile = _ := (selectStatement_eq "t" none none (some ⟨condition, _⟩) [] []).trans
    (hfinish ⟨.integer, .integer 7⟩ ⟨.text, .text "$1?"⟩ ⟨.text, .text "\x22"⟩)
  exact ⟨_, _, hd, he, noninterference ⟨rfl, .none, .none, rfl, trivial, .some ⟨⟨rfl, rfl⟩, ⟨rfl, rfl⟩, trivial⟩⟩ hd he⟩

end RecordSql
