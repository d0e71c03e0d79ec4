import RecordSql.Proofs.Database.Trace
import RecordSql.Proofs.Sql.Clauses
import RecordSql.Proofs.Sql.Place
import RecordSql.Rehearsal.Stage

/-!
# What a database is given to bind

That a statement has as many marks as parameters is checked on the text of its clauses, before the marks are numbered.
The database sees the text afterwards, in its own style. It finds a place for every parameter, and one more for every
number with a dollar sign before it that the clauses themselves contain: so places and values agree exactly if there is
no such number.
-/

namespace RecordSql

open Fragment

/-- How a database gets a statement that was finished from a fragment: by one call, in the style of the database, with
the values of the parameters. The places that it finds are those of the marks of the fragment and of stray numbers, and
without such numbers they stand where the marks stood. -/
structure Delivered (f : Fragment) (s : Statement) : Prop where
  call {ω κ : Type} (a : Adapter ω κ) (style : Style) : Style.ofName? a.style = .ok style → ∀ echo c w,
    ∃ sql failure, ((a.traced.send echo c s).run (w, [])).2.2 = [.executed c sql s.values failure] ∧
      style.read sql = some (placesOf (f.text ++ ";"))
  values : s.values.length = s.params.length
  count : (placesOf (f.text ++ ";")).count .place = s.params.length + straysOf (f.text ++ ";")
  agree : (placesOf (f.text ++ ";")).count .place = s.params.length ↔ straysOf (f.text ++ ";") = 0
  order : straysOf (f.text ++ ";") = 0 → placesOf (f.text ++ ";") = trimmed false (itemsOf (f.text ++ ";"))

theorem Adapter.run_traced_send_of_spelling {ω κ : Type} {a : Adapter ω κ} {s : Statement} {sql : String}
    (h : a.spelling s = .ok sql) (echo : Bool) (c : κ) (w : ω) :
    ∃ failure, ((a.traced.send echo c s).run (w, [])).2.2 = [.executed c sql s.values failure] := by
  rw [run_traced_send, sendCalls, h]
  exact ⟨_, rfl⟩

/-- Whatever is finished is delivered. -/
theorem delivered_of_finish {f : Fragment} {s : Statement} (h : Statement.finish f = .ok s) : Delivered f s := by
  obtain ⟨hc, hm, rfl⟩ := Statement.finish_eq_ok.1 h
  have hcount : (placesOf (f.text ++ ";")).count .place = f.params.length + straysOf (f.text ++ ";") := by
    rw [count_place_placesOf, hm]
  have hagree : (placesOf (f.text ++ ";")).count .place = f.params.length ↔ straysOf (f.text ++ ";") = 0 := by
    rw [hcount, Nat.add_eq_left]
  refine ⟨fun a style hstyle echo c w => ?_, List.length_map _, hcount, hagree, placesOf_eq_trimmed⟩
  obtain ⟨sql, hsql, hread⟩ := read_styled_numbered hc style
  have hspelling : a.spelling ⟨numbered 1 (f.text ++ ";"), f.params⟩ = .ok sql := by
    rw [Adapter.spelling, hstyle]
    exact hsql
  obtain ⟨failure, hcalls⟩ := Adapter.run_traced_send_of_spelling hspelling echo c w
  exact ⟨sql, failure, hcalls, hread⟩

/-- A statement of any clauses is delivered with as many places as values exactly if no number with a dollar sign before
it stands in the code of its clauses; and then the places stand where the marks of the clauses stood, and nothing else
has changed but for digits right behind a mark. -/
theorem places_eq_values_iff (table : String) :
    (∀ (columns join filter : Option Fragment) (items : List String) (joins : List Fragment) (s : Statement),
      selectStatement table ⟨columns.map .ok, join.map .ok, filter.map .ok⟩ items joins = .ok s →
      Delivered (Fragment.join "" (selectParts table columns join filter items joins)) s) ∧
    (∀ (columns : List Value) (rows : List (List Value)) (returning : Option Fragment) (s : Statement),
      insertStatement table columns ⟨rows, returning.map .ok⟩ = .ok s →
      ∃ fs names, rows.mapM insertRow = .ok fs ∧ columns.mapM columnName = .ok names ∧
        Delivered (Fragment.join "" (insertParts table names fs returning)) s) ∧
    (∀ (assignments : Dict) (filter returning : Option Fragment) (s : Statement),
      updateStatement table ⟨assignments, filter.map .ok, returning.map .ok⟩ = .ok s →
      ∃ names ps, assignments.mapM (fun a => columnName a.1) = .ok names ∧
        Param.ofValues (assignments.map (·.2)) = .ok ps ∧
        Delivered (Fragment.join "" (updateParts table names ps filter returning)) s) := by
  refine ⟨fun columns join filter items joins s h => ?_, fun columns rows returning s h => ?_,
    fun assignments filter returning s h => ?_⟩
  · rw [selectStatement_eq] at h
    exact delivered_of_finish h
  · obtain ⟨-, fs, names, hfs, hn, h⟩ := (insertStatement_eq_ok table).1 h
    exact ⟨fs, names, hfs, hn, delivered_of_finish h⟩
  · obtain ⟨-, names, ps, hn, hp, h⟩ := (updateStatement_eq_ok table).1 h
    exact ⟨names, ps, hn, hp, delivered_of_finish h⟩

/-- Percent signs, a mark and a number in quotes: the percent style has one place for the one value. -/
theorem places_eq_values_percent :
    let filter : Fragment := ⟨"note <> '50% $1?' AND y % 2 = ?", [⟨.integer, .integer 1⟩]⟩
    let f := Fragment.join "" (selectParts "t" none none (some filter) [] [])
    ∃ s, selectStatement "t" ⟨none, none, some (.ok filter)⟩ [] [] = .ok s ∧ Delivered f s ∧
      straysOf (f.text ++ ";") = 0 ∧
      styled s.sql .percent = .ok "SELECT \"t\".* FROM \"t\" WHERE note <> '50%% $1?' AND y %% 2 = %s;" := by
  intro filter f
  have hclosed : Closed (f.text ++ ";") := by decide +kernel
  have h : selectStatement "t" ⟨none, none, some (.ok filter)⟩ [] [] = .ok ⟨numbered 1 (f.text ++ ";"), f.params⟩ :=
    (selectStatement_eq "t" none none (some filter) [] []).trans
      (Statement.finish_eq_ok.2 ⟨hclosed, by decide +kernel, rfl⟩)
  refine ⟨_, h, (places_eq_values_iff "t").1 none none (some filter) [] [] _ h, by decide +kernel, ?_⟩
  rw [styled_of_closed (hclosed.numbered (by decide)) (by simp), Except.ok.injEq]
  decide +kernel

/-- A condition with a number of its own is finished without parameters, and the database finds a place. -/
theorem place_without_value :
    ∃ s, selectStatement "users" ⟨none, none, some (.ok (.plain "id = $1"))⟩ [] [] = .ok s ∧ s.values = [] ∧
      styled s.sql .question = .ok "SELECT \"users\".* FROM \"users\" WHERE id = ?;" ∧
      (itemsOf "SELECT \"users\".* FROM \"users\" WHERE id = ?;").count .place = 1 := by
  have hclosed : Closed "SELECT \"users\".* FROM \"users\" WHERE id = $1;" := by decide +kernel
  have h := selectStatement_eq "users" none none (some (.plain "id = $1")) [] []
  have hfinish : Statement.finish (Fragment.join "" (selectParts "users" none none (some (.plain "id = $1")) [] [])) =
      .ok ⟨numbered 1 "SELECT \"users\".* FROM \"users\" WHERE id = $1;", []⟩ :=
    Statement.finish_eq_ok.2 ⟨hclosed, by decide +kernel, rfl⟩
  refine ⟨_, h.trans hfinish, rfl, ?_, by decide +kernel⟩
  rw [styled_of_closed (hclosed.numbered (by decide)) (by simp), Except.ok.injEq]
  decide +kernel

end RecordSql
