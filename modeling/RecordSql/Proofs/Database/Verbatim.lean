import RecordSql.Proofs.Database.Opening
import RecordSql.Proofs.Sql.Noninterference
import RecordSql.Proofs.Sql.Wording

/-!
# Statements that arrive as they were written

Callers mark values with question marks, and so does SQLite. On its way from the one to the other a statement has its
marks numbered when it is compiled, and written as question marks again when it is sent. It arrives as it was written if
all fragments that it is made of come back from numbering: between any two of them stands a keyword, so that no mark
meets a digit of the next fragment.

* `Compiled.restorable`: fragments that come back make a statement that does.
* `Sqlite.tells_send`: the one call that sending a statement makes.
* `numbering_undone`: both, with the texts that come back.
-/

namespace RecordSql

/-! ### Behind keywords -/

theorem SectionKind.calm_of_plain {cs : List Char} (h : ∀ c ∈ cs, isPlain c) (hmarks : code.markCount cs = 0) :
    code.Calm cs := by
  induction cs with
  | nil => trivial
  | cons c cs ih =>
    obtain ⟨hc, hcs⟩ := List.forall_mem_cons.1 h
    obtain ⟨hcode, hdollar, -⟩ := isPlain_iff.1 hc
    rw [markCount, step_of_isCode hcode, Nat.add_eq_zero_iff] at hmarks
    have hmark : c ≠ '?' := by
      rintro rfl
      cases hmarks.1
    rw [Calm, step_of_isCode hcode]
    exact ⟨fun _ => ⟨hdollar, hmark⟩, ih hcs hmarks.2⟩

section Keywords

variable {a b keyword : String} (hk : PlainCode keyword ∧ MarkFree keyword)

include hk

/-- Whatever comes back does so behind a keyword, and in front of the keyword there may be anything. -/
theorem Restorable.behind (h : Restorable a) : Detached (keyword ++ a) := by
  obtain ⟨⟨hne, hplain⟩, hclosed, hmarks⟩ := hk
  obtain ⟨hclosed', hsteady⟩ := restorable_iff.1 h
  refine ⟨restorable_iff.2 ⟨hclosed.append hclosed', ?_⟩, ?_⟩
  · rw [String.toList_append, SectionKind.steady_append_of_calm (SectionKind.calm_of_plain hplain hmarks),
      show SectionKind.code.after keyword.toList = .code from hclosed]
    exact hsteady
  · obtain ⟨c, cs, hcs⟩ := List.exists_cons_of_ne_nil (mt String.toList_eq_nil_iff.1 hne)
    rw [String.toList_append, hcs]
    exact (isPlain_iff.1 (hplain c (by simp [hcs]))).2.2

theorem Restorable.between (ha : Restorable a) (hb : Restorable b) : Restorable (a ++ keyword ++ b) := by
  rw [String.append_assoc]
  exact ha.append (hb.behind hk)

theorem Restorable.intercalate {texts : List String} (h : ∀ t ∈ texts, Restorable t) :
    Restorable (keyword.intercalate texts) := by
  induction texts with
  | nil =>
    rw [String.intercalate_nil]
    decide
  | cons a l ih =>
    obtain ⟨ha, hl⟩ := List.forall_mem_cons.1 h
    cases l with
    | nil => rwa [String.intercalate_singleton]
    | cons b l =>
      rw [String.intercalate_cons_cons]
      exact ha.between hk (ih hl)

theorem detached_clauseSql {c : Option String} (h : ∀ t ∈ c, Restorable t) : Detached (clauseSql keyword c) := by
  cases c with
  | none => exact (by decide : Detached "")
  | some t => exact (h t rfl).behind hk

end Keywords

theorem detached_joins {texts : List String} (h : ∀ t ∈ texts, Restorable t) :
    Detached (String.join (texts.map (" " ++ ·))) := by
  induction texts with
  | nil => decide
  | cons t texts ih =>
    obtain ⟨ht, htexts⟩ := List.forall_mem_cons.1 h
    rw [List.map_cons, String.join_cons]
    exact (ht.behind (by decide)).append (ih htexts)

/-! ### Texts of statements -/

theorem restorable_quoteName (name : String) : Restorable (quoteName name) :=
  Worded.restorable (Worded.quoteName (List.mem_singleton_self name))

theorem restorable_rowText (row : List Value) : Restorable (rowText row) := by
  have hcell : ∀ t ∈ row.map cellText, Restorable t := by
    intro t ht
    obtain ⟨v, -, rfl⟩ := List.mem_map.1 ht
    unfold cellText
    split <;> decide
  exact ((Restorable.intercalate (by decide) hcell).behind (by decide)).restorable.append (by decide)

theorem restorable_setText (names : List String) : Restorable (setText names) := by
  refine Restorable.intercalate (by decide) fun t ht => ?_
  obtain ⟨name, -, rfl⟩ := List.mem_map.1 ht
  exact (restorable_quoteName name).append (by decide)

theorem restorable_selectSql (table : String) {columns join filter : Option String} {items joins : List String}
    (hc : ∀ t ∈ columns, Restorable t) (hj : ∀ t ∈ join, Restorable t) (hi : ∀ t ∈ items, Restorable t)
    (hjs : ∀ t ∈ joins, Restorable t) (hf : ∀ t ∈ filter, Restorable t) :
    Restorable (selectSql table columns join items joins filter) := by
  have hcolumns : Restorable (columns.getD (quoteName table ++ ".*")) := by
    cases columns with
    | none => exact (restorable_quoteName table).append (by decide)
    | some t => exact hc t rfl
  have hitems : Detached (if items.isEmpty then "" else ", " ++ String.intercalate ", " items) := by
    split
    · decide
    · exact (Restorable.intercalate (by decide) hi).behind (by decide)
  have hselect : Restorable ("SELECT " ++ columns.getD (quoteName table ++ ".*")) :=
    (hcolumns.behind (by decide)).restorable
  delta selectSql
  exact ((((hselect.append hitems).between (by decide) (restorable_quoteName table)).append
    (detached_clauseSql (by decide) hj)).append (detached_joins hjs)).append (detached_clauseSql (by decide) hf)

theorem restorable_insertSql (table : String) (names : List String) (rows : List (List Value))
    {returning : Option String} (hr : ∀ t ∈ returning, Restorable t) :
    Restorable (insertSql table names (rows.map rowText) returning) := by
  have hnames : Restorable (String.intercalate "," (names.map quoteName)) := by
    refine Restorable.intercalate (by decide) fun t ht => ?_
    obtain ⟨name, -, rfl⟩ := List.mem_map.1 ht
    exact restorable_quoteName name
  have hrows : Restorable (String.intercalate "," (rows.map rowText)) := by
    refine Restorable.intercalate (by decide) fun t ht => ?_
    obtain ⟨row, -, rfl⟩ := List.mem_map.1 ht
    exact restorable_rowText row
  have hinsert : Restorable ("INSERT INTO " ++ quoteName table) :=
    ((restorable_quoteName table).behind (by decide)).restorable
  delta insertSql
  exact ((hinsert.between (by decide) hnames).between (by decide) hrows).append (detached_clauseSql (by decide) hr)

theorem restorable_updateSql (table : String) (names : List String) {filter returning : Option String}
    (hf : ∀ t ∈ filter, Restorable t) (hr : ∀ t ∈ returning, Restorable t) :
    Restorable (updateSql table names filter returning) := by
  have hupdate : Restorable ("UPDATE " ++ quoteName table) :=
    ((restorable_quoteName table).behind (by decide)).restorable
  delta updateSql
  exact ((hupdate.between (by decide) (restorable_setText names)).append (detached_clauseSql (by decide) hf)).append
    (detached_clauseSql (by decide) hr)

/-! ### Compiled statements -/

/-- A statement that was compiled: the texts of the fragments that were given for it, and the text that they make with
its keywords and names. -/
inductive Compiled : List String → String → Statement → Prop
  | select {table : String} {columns join filter : Option Fragment} {items : List String} {joins : List Fragment}
      {s : Statement} (h : selectStatement table ⟨columns.map .ok, join.map .ok, filter.map .ok⟩ items joins = .ok s) :
    Compiled ((columns.toList ++ join.toList ++ joins ++ filter.toList).map Fragment.text ++ items)
      (selectSql table (columns.map Fragment.text) (join.map Fragment.text) items (joins.map Fragment.text)
        (filter.map Fragment.text)) s
  | insert {table : String} {columns : List Value} {rows : List (List Value)} {returning : Option Fragment}
      {s : Statement} (h : insertStatement table columns ⟨rows, returning.map .ok⟩ = .ok s) :
    Compiled (returning.toList.map Fragment.text)
      (insertSql table (namesOf columns) (rows.map rowText) (returning.map Fragment.text)) s
  | update {table : String} {assignments : Dict} {filter returning : Option Fragment} {s : Statement}
      (h : updateStatement table ⟨assignments, filter.map .ok, returning.map .ok⟩ = .ok s) :
    Compiled ((filter.toList ++ returning.toList).map Fragment.text)
      (updateSql table (namesOf (assignments.map (·.1))) (filter.map Fragment.text) (returning.map Fragment.text)) s

namespace Compiled

variable {texts : List String} {whole : String} {s : Statement}

/-- What is compiled is the text, with its semicolon, numbered. -/
theorem sql_eq (h : Compiled texts whole s) : Closed (whole ++ ";") ∧ s.sql = numbered 1 (whole ++ ";") := by
  cases h with
  | select h =>
    rw [selectStatement_eq] at h
    obtain ⟨hclosed, -, rfl⟩ := Statement.finish_eq_ok.1 h
    rw [Fragment.text_selectParts] at hclosed ⊢
    exact ⟨hclosed, rfl⟩
  | insert h =>
    obtain ⟨-, fs, names, hfs, hnames, h⟩ := (insertStatement_eq_ok _).1 h
    obtain ⟨hclosed, -, rfl⟩ := Statement.finish_eq_ok.1 h
    rw [Fragment.text_insertParts, (insertRows_eq_ok hfs).1, columnNames_eq_ok hnames] at hclosed ⊢
    exact ⟨hclosed, rfl⟩
  | @update _ assignments _ _ _ h =>
    obtain ⟨-, names, ps, hnames, -, h⟩ := (updateStatement_eq_ok _).1 h
    have hnames : (assignments.map (·.1)).mapM columnName = .ok names := by rwa [List.mapM_map]
    obtain ⟨hclosed, -, rfl⟩ := Statement.finish_eq_ok.1 h
    rw [Fragment.text_updateParts, columnNames_eq_ok hnames] at hclosed ⊢
    exact ⟨hclosed, rfl⟩

/-- Fragments that come back make a statement that does. -/
theorem restorable (h : Compiled texts whole s) (ht : ∀ t ∈ texts, Restorable t) : Restorable (whole ++ ";") := by
  refine Restorable.append ?_ (by decide)
  cases h with
  | select =>
    simp only [List.map_append, List.forall_mem_append] at ht
    obtain ⟨⟨⟨⟨hc, hj⟩, hjs⟩, hf⟩, hi⟩ := ht
    exact restorable_selectSql _ (by simpa using hc) (by simpa using hj) hi hjs (by simpa using hf)
  | insert => exact restorable_insertSql _ _ _ (by simpa using ht)
  | update =>
    simp only [List.map_append, List.forall_mem_append] at ht
    exact restorable_updateSql _ _ (by simpa using ht.1) (by simpa using ht.2)

end Compiled

/-! ### Sending -/

open Driver

variable {ω κ : Type} (d : Driver ω κ)

theorem Sqlite.records_traced : Adapter.Records (Sqlite.adapter d) (Sqlite.adapter d.traced) fun c sql values outcome =>
    .executed c sql (some values) (Outcome.failure? outcome) :=
  ⟨rfl, rfl, fun _ _ _ => rfl, fun _ _ _ => rfl⟩

/-- Sending a statement that can be written with question marks makes one call, with its text and its values. -/
theorem Sqlite.tells_send (echo : Bool) (c : κ) {s : Statement} {sql : String} (h : styled s.sql .question = .ok sql) :
    Tells ((Sqlite.adapter d).send echo c s) ((Sqlite.adapter d.traced).send echo c s) fun _ calls =>
      ∃ failure, calls = [.executed c sql (some s.values) failure] :=
  fun w calls => ⟨_, (Sqlite.records_traced d).run_send echo c w calls h, _, rfl⟩

/-- **Numbering is undone.** Numbering the marks of a text and writing them as question marks gives the text back
exactly if no dollar sign and no question mark in its code has a digit right behind it. So a statement that is compiled
from fragments of this kind reaches SQLite as it was written, with a semicolon. -/
theorem numbering_undone :
    (∀ (text : String) (sections : List Section), sectionsOf text = .ok sections → ∀ start : Nat,
      ∃ sql count, numberMarks text start = .ok (sql, count) ∧
        (styled sql .question = .ok text ↔ ∀ s ∈ sections, s.Restorable)) ∧
    ∀ (texts : List String) (whole : String) (s : Statement), Compiled texts whole s → (∀ t ∈ texts, Restorable t) →
      ∀ (echo : Bool) (c : κ),
        Tells ((Sqlite.adapter d).send echo c s) ((Sqlite.adapter d.traced).send echo c s) fun _ calls =>
          ∃ failure, calls = [.executed c (whole ++ ";") (some s.values) failure] := by
  constructor
  · intro text sections hcut start
    have hclosed := closed_of_split (sectionsOf_eq_ok.1 hcut)
    refine ⟨_, _, numberMarks_of_closed hclosed start, ?_⟩
    rw [styled_numbered_eq_iff hclosed (Int.natCast_nonneg start)]
    constructor
    · rintro ⟨_, hs, h⟩
      rw [hcut] at hs
      cases hs
      exact h
    · exact fun h => ⟨sections, hcut, h⟩
  · intro texts whole s hcompiled htexts echo c
    obtain ⟨hclosed, hsql⟩ := hcompiled.sql_eq
    refine Sqlite.tells_send d echo c ?_
    rw [hsql, styled_numbered_eq_iff hclosed (by decide)]
    exact hcompiled.restorable htexts

end RecordSql

namespace RecordSql.Rehearsal

open Driver

/-- Marks come back that stand next to each other, to a dollar sign or to a quoted text, but a mark before a digit does
not. A statement with numbers behind the marks in its quoted sections arrives as it was written. -/
theorem numbering_undone_odd :
    (∃ sql count, numberMarks "a = ??$?'5'" 1 = .ok (sql, count) ∧ styled sql .question = .ok "a = ??$?'5'") ∧
    (∃ sql count, numberMarks "a = ?5" 1 = .ok (sql, count) ∧ styled sql .question ≠ .ok "a = ?5") ∧
    ∃ (s : Statement) (failure : Option Failure),
      selectStatement "t?5" ⟨none, none, some (.ok ⟨"$? = '?5'", [⟨.integer, .integer 7⟩]⟩)⟩ ["1 AS \"$1\""] [] =
        .ok s ∧
      (((Sqlite.adapter driver.traced).send false 1 s).run (Stage.empty, [])).2.2 =
        [.executed 1 "SELECT \"t?5\".*, 1 AS \"$1\" FROM \"t?5\" WHERE $? = '?5';" (some [.integer 7]) failure] := by
  obtain ⟨hback, harrives⟩ := numbering_undone driver
  have hodd : sectionsOf "a = ??$?'5'" = .ok [⟨.code, "a = ??$?".toList⟩, ⟨.quoted .text, "'5'".toList⟩] :=
    sectionsOf_eq_ok.2 (by decide +kernel)
  have hlost : sectionsOf "a = ?5" = .ok [⟨.code, "a = ?5".toList⟩] := sectionsOf_eq_ok.2 (by decide +kernel)
  let filter : Fragment := ⟨"$? = '?5'", [⟨.integer, .integer 7⟩]⟩
  let items := ["1 AS \"$1\""]
  let whole := "SELECT \"t?5\".*, 1 AS \"$1\" FROM \"t?5\" WHERE $? = '?5'"
  let s : Statement := ⟨numbered 1 (whole ++ ";"), filter.params⟩
  have hs : selectStatement "t?5" ⟨none, none, some (.ok filter)⟩ items [] = .ok s := by
    have hclosed : Closed (whole ++ ";") := by decide +kernel
    have hmarks : marksOf (whole ++ ";") = 1 := by decide +kernel
    exact (selectStatement_eq "t?5" none none (some filter) items []).trans
      (Statement.finish_eq_ok.2 ⟨hclosed, hmarks, rfl⟩)
  have hcompiled : Compiled ["$? = '?5'", "1 AS \"$1\""] whole s :=
    @Compiled.select "t?5" none none (some filter) items [] s hs
  obtain ⟨_, hrun, failure, rfl⟩ := harrives _ whole s hcompiled (by decide +kernel) false 1 Stage.empty []
  refine ⟨?_, ?_, s, failure, hs, congrArg (·.2.2) hrun⟩
  · obtain ⟨sql, count, hsql, h⟩ := hback _ _ hodd 1
    exact ⟨sql, count, hsql, h.2 (by decide)⟩
  · obtain ⟨sql, count, hsql, h⟩ := hback _ _ hlost 1
    exact ⟨sql, count, hsql, mt h.1 (by decide)⟩

end RecordSql.Rehearsal
