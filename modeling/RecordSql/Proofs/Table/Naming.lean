import RecordSql.Proofs.Relation.Declaration
import RecordSql.Proofs.Relation.Load
import RecordSql.Proofs.Sql.Noninterference
import RecordSql.Proofs.Table.Builder
import RecordSql.Proofs.Table.Key

/-!
# Names in queries

Tables, columns, fields and pivots may have any names. A query for keys with relations joined to it, and the batch of a
relation, are worded with these names and with what is made of them: whatever characters the names have, they end no
quoted section and stand for no value.
-/

namespace RecordSql

open Builder

/-! ### Names of a relation -/

/-- The names of the parts of a pivot that are given. -/
def Pivot.names (p : Pivot) : List String := p.table.toList ++ p.sourceKey.toList ++ p.targetKey.toList

namespace Relation

variable {r : Relation} {names : List String}

/-- The names that a relation is declared with. -/
def givenNames (r : Relation) : List String :=
  [r.source.name, r.target.name, r.foreignKey, r.modelKey] ++ r.pivot.names

/-- The names in a query that the relation is joined to: its own, the columns of its target, the names of the joined
tables, and the labels of the columns. -/
def joinedNames (r : Relation) : List String :=
  r.givenNames ++ [r.joinedName, r.joinedName ++ ".pivot"] ++ r.target.columns ++ r.target.columns.map r.columnLabel

/-- The names in a batch of the relation. -/
def batchNames (r : Relation) : List String := r.givenNames ++ [pivotAlias, relationKey]

/-- A relation through a pivot has all of its parts. -/
def HasParts (r : Relation) : Prop :=
  r.route = .through → ∃ table sourceKey targetKey, r.pivot = ⟨some table, some sourceKey, some targetKey⟩

theorem hasParts_of_complete {d : Declaration} (h : d.complete = .ok r) : r.HasParts := by
  intro hroute
  obtain ⟨table, sourceKey, targetKey, -, -, -, hpivot⟩ := (Declaration.completionOf_complete h).pivot hroute
  exact ⟨table, sourceKey, targetKey, hpivot⟩

/-! ### Joined relations -/

theorem named_leftJoin {table name left right : String} (ht : table ∈ names) (hn : name ∈ names)
    (hl : Unmarked names true left) (hr : Unmarked names true right) :
    (leftJoin table name left right).Named names := by
  have htable : Unmarked names true ("LEFT JOIN " ++ quoteName table) :=
    Unmarked.prepend (by decide) (Unmarked.quoteName ht)
  have hnamed : Unmarked names true ("LEFT JOIN " ++ quoteName table ++ " AS " ++ quoteName name) :=
    htable.between (by decide) (Unmarked.quoteName hn)
  exact Fragment.named_plain ((hnamed.between (by decide) hl).between (by decide) hr)

theorem named_joins (hr : r.HasParts) : ∀ f ∈ r.joins, f.Named r.joinedNames := by
  have hsource : r.source.name ∈ r.joinedNames := by simp [joinedNames, givenNames]
  have htarget : r.target.name ∈ r.joinedNames := by simp [joinedNames, givenNames]
  have hfk : r.foreignKey ∈ r.joinedNames := by simp [joinedNames, givenNames]
  have hmk : r.modelKey ∈ r.joinedNames := by simp [joinedNames, givenNames]
  have hjoined : r.joinedName ∈ r.joinedNames := by simp [joinedNames]
  have hbetween : r.joinedName ++ ".pivot" ∈ r.joinedNames := by simp [joinedNames]
  rw [joins]
  cases hroute : r.route with
  | through =>
    obtain ⟨table, sourceKey, targetKey, hpivot⟩ := hr hroute
    have htable : table ∈ r.joinedNames := by simp [joinedNames, givenNames, Pivot.names, hpivot]
    have hsk : sourceKey ∈ r.joinedNames := by simp [joinedNames, givenNames, Pivot.names, hpivot]
    have htk : targetKey ∈ r.joinedNames := by simp [joinedNames, givenNames, Pivot.names, hpivot]
    simp only [hpivot, Option.getD_some, List.forall_mem_cons, List.not_mem_nil, false_implies, implies_true, and_true]
    exact ⟨named_leftJoin htable hbetween (Unmarked.qualify hsource hfk) (Unmarked.qualify hbetween hsk),
      named_leftJoin htarget hjoined (Unmarked.qualify hbetween htk) (Unmarked.qualify hjoined hmk)⟩
  | direct =>
    simp only [List.forall_mem_singleton]
    exact named_leftJoin htarget hjoined (Unmarked.qualify hsource hfk) (Unmarked.qualify hjoined hmk)
  | reverse =>
    simp only [List.forall_mem_singleton]
    exact named_leftJoin htarget hjoined (Unmarked.qualify hsource hmk) (Unmarked.qualify hjoined hfk)

theorem unmarked_joinedItems (r : Relation) : ∀ t ∈ r.joinedItems, Unmarked r.joinedNames true t := by
  intro t ht
  obtain ⟨column, hc, rfl⟩ := List.mem_map.1 ht
  have hcolumn : column ∈ r.joinedNames := by simp [joinedNames, hc]
  have hjoined : r.joinedName ∈ r.joinedNames := by simp [joinedNames]
  have hlabel : r.columnLabel column ∈ r.joinedNames := by
    rw [joinedNames, List.mem_append]
    exact .inr (List.mem_map_of_mem hc)
  exact (Unmarked.qualify hjoined hcolumn).between (by decide) (Unmarked.quoteName hlabel)

/-! ### Batches -/

theorem mem_batchNames : r.source.name ∈ r.batchNames ∧ r.target.name ∈ r.batchNames ∧ r.foreignKey ∈ r.batchNames ∧
    r.modelKey ∈ r.batchNames ∧ pivotAlias ∈ r.batchNames ∧ relationKey ∈ r.batchNames := by
  simp [batchNames, givenNames]

theorem unmarked_batchKey (hr : r.HasParts) : Unmarked r.batchNames true r.batchKey := by
  obtain ⟨-, htarget, hfk, hmk, halias, -⟩ := r.mem_batchNames
  rw [batchKey]
  split
  · rename_i hroute
    obtain ⟨table, sourceKey, targetKey, hpivot⟩ := hr hroute
    have hsk : sourceKey ∈ r.batchNames := by simp [batchNames, givenNames, Pivot.names, hpivot]
    rw [hpivot]
    exact Unmarked.qualify halias hsk
  · exact Unmarked.qualify htarget hmk
  · exact Unmarked.qualify htarget hfk

theorem named_batchJoin (hr : r.HasParts) : ∀ f ∈ r.batchJoin, f.Named r.batchNames := by
  obtain ⟨-, htarget, -, hmk, halias, -⟩ := r.mem_batchNames
  intro f hf
  rw [batchJoin] at hf
  split at hf
  · rename_i hroute
    obtain ⟨table, sourceKey, targetKey, hpivot⟩ := hr hroute
    have htable : table ∈ r.batchNames := by simp [batchNames, givenNames, Pivot.names, hpivot]
    have htk : targetKey ∈ r.batchNames := by simp [batchNames, givenNames, Pivot.names, hpivot]
    rw [hpivot] at hf
    obtain rfl := Option.some.inj hf
    have hpivotTable : Unmarked r.batchNames true ("INNER JOIN " ++ quoteName table) :=
      Unmarked.prepend (by decide) (Unmarked.quoteName htable)
    have hnamed : Unmarked r.batchNames true ("INNER JOIN " ++ quoteName table ++ " AS " ++ quoteName pivotAlias) :=
      hpivotTable.between (by decide) (Unmarked.quoteName halias)
    exact Fragment.named_plain ((hnamed.between (by decide) (Unmarked.qualify htarget hmk)).between (by decide)
      (Unmarked.qualify halias htk))
  · cases hf

theorem unmarked_batchColumns (hr : r.HasParts) : Unmarked r.batchNames true r.batchColumns := by
  obtain ⟨-, htarget, -, -, -, hkey⟩ := r.mem_batchNames
  have hall : Unmarked r.batchNames true (quoteName r.target.name ++ ".*, " ++ r.batchKey) :=
    (Unmarked.quoteName htarget).between (by decide) (unmarked_batchKey hr)
  exact hall.between (by decide) (Unmarked.quoteName hkey)

end Relation

/-! ### Queries -/

namespace Fragment

variable {names : List String} {table : String} {columns join filter : Option Fragment} {items : List String}
  {joins : List Fragment}

theorem worded_clauseSql {keyword : String} (hk : PlainCode keyword) {c : Option Fragment}
    (hc : ∀ f ∈ c, f.Named names) :
    Worded names false (clauseSql keyword (c.map text)) := by
  cases c with
  | none => exact Worded.empty
  | some f => exact Worded.prepend hk (hc f rfl).worded

theorem worded_joins (h : ∀ f ∈ joins, f.Named names) :
    Worded names false (String.join ((joins.map text).map (" " ++ ·))) := by
  induction joins with
  | nil => exact Worded.empty
  | cons f joins ih =>
    obtain ⟨hf, hjoins⟩ := List.forall_mem_cons.1 h
    rw [List.map_cons, List.map_cons, String.join_cons]
    exact (Worded.prepend (by decide) hf.worded).append (ih hjoins)

/-- A query of named parts is named. -/
theorem named_selectParts (ht : table ∈ names) (hc : ∀ f ∈ columns, f.Named names) (hj : ∀ f ∈ join, f.Named names)
    (hf : ∀ f ∈ filter, f.Named names) (hi : ∀ t ∈ items, Unmarked names true t) (hjs : ∀ f ∈ joins, f.Named names) :
    (Fragment.join "" (selectParts table columns join filter items joins)).Named names := by
  constructor
  · exact balanced_join (by decide) (balanced_selectParts table (fun f h => (hc f h).balanced)
      (fun f h => (hj f h).balanced) (fun f h => (hf f h).balanced) (fun t h => (hi t h).markFree)
      fun f h => (hjs f h).balanced)
  · have hcolumns : Worded names true ((columns.map text).getD (quoteName table ++ ".*")) := by
      cases columns with
      | none => exact (Worded.quoteName ht).append (Worded.of_plain (by decide))
      | some f => exact (hc f rfl).worded
    have hitems : Worded names false (if items.isEmpty then "" else ", " ++ String.intercalate ", " items) := by
      split
      · exact Worded.empty
      · exact Worded.prepend (by decide) (Worded.intercalate (by decide) fun t h => (hi t h).worded)
    have hselect : Worded names true ("SELECT " ++ (columns.map text).getD (quoteName table ++ ".*")) :=
      Worded.prepend (by decide) hcolumns
    rw [text_selectParts]
    delta selectSql
    exact ((((hselect.append hitems).between (by decide) (Worded.quoteName ht)).append
      (worded_clauseSql (by decide) hj)).append (worded_joins hjs)).append (worded_clauseSql (by decide) hf)

/-- A query of named parts is finished, with the parameters of its clauses. -/
theorem named_selectStatement (ht : table ∈ names) (hc : ∀ f ∈ columns, f.Named names) (hj : ∀ f ∈ join, f.Named names)
    (hf : ∀ f ∈ filter, f.Named names) (hi : ∀ t ∈ items, Unmarked names true t) (hjs : ∀ f ∈ joins, f.Named names) :
    ∃ s body, selectStatement table ⟨columns.map .ok, join.map .ok, filter.map .ok⟩ items joins = .ok s ∧
      s.params = clauseParams columns ++ clauseParams join ++ joins.flatMap params ++ clauseParams filter ∧
      s.WordedFrom names body := by
  have hnamed := named_selectParts ht hc hj hf hi hjs
  obtain ⟨s, hs, hparams, hworded⟩ := Statement.worded_finish hnamed.worded hnamed.balanced
  refine ⟨s, _, by rw [selectStatement_eq, hs], ?_, hworded⟩
  rw [hparams]
  simp only [Fragment.join, selectParts, List.flatMap_append, params_selectHead, params_clauseParts, params_joins]

end Fragment

/-! ### Keys that are sought -/

/-- The condition on the keys that are sought, if any are. -/
def Table.soughtClause (t : Table) (key : Option Value) : Option Clause :=
  key.bind fun key => (t.keyCondition key).toOption.map .ok

/-- The parameters for the keys that are sought, if any are. -/
def Table.soughtParams (t : Table) : Option Value → Except Failure (List Param)
  | none => .ok []
  | some key => (t.keyValues key).bind fun values => Param.ofValues values.flatten

namespace Builder

namespace Request

/-- A request of a query for keys with relations: a complete relation, keys, a build or a run. -/
def SeeksKeys : Request → Prop
  | .load r _ => ∃ d : Declaration, d.complete = .ok r
  | .filterKey _ | .build | .run => True
  | _ => False

/-- The keys that a request makes the condition of. -/
def key? (t : Table) : Request → Option Value
  | .filterKey key => (t.keyCondition key).toOption.map fun _ => key
  | _ => none

variable {t : Table} {request : Request} {requests : List Request}

theorem filter?_of_seeksKeys (h : request.SeeksKeys) :
    request.filter? t = t.soughtClause (request.key? t) := by
  cases request with
  | filterKey key =>
    rw [filter?, key?]
    cases hc : t.keyCondition key with
    | error e => rfl
    | ok c => exact congrArg (Option.map Except.ok ∘ Except.toOption) hc.symm
  | load | build | run => rfl
  | _ => exact h.elim

/-- What requests seek has a condition. -/
theorem condition_of_latest {key : Value} (h : latest (key? t) requests = some key) :
    ∃ c, t.keyCondition key = .ok c := by
  obtain ⟨request, -, hkey⟩ := List.mem_filterMap.1 (List.mem_of_getLast? h)
  cases request with
  | filterKey key' =>
    rw [key?] at hkey
    cases hc : t.keyCondition key' with
    | error e =>
      rw [hc] at hkey
      cases hkey
    | ok c =>
      rw [hc] at hkey
      obtain rfl := Option.some.inj hkey
      exact ⟨c, hc⟩
  | _ => cases hkey

/-- Requests for keys set no clause but the condition, which is the one on the last keys. -/
theorem clauses_of_seeksKeys (h : ∀ r ∈ requests, r.SeeksKeys) : (Query.settled t requests).clauses =
    ⟨none, none, t.soughtClause (latest (key? t) requests)⟩ := by
  rw [Query.settled]
  induction requests using List.reverseRecOn with
  | nil => rfl
  | append_singleton requests request ih =>
    obtain ⟨hrequests, hrequest⟩ := List.forall_mem_append.1 h
    obtain ⟨hcolumns, hjoin, hfilter⟩ := SelectClauses.mk.inj (ih hrequests)
    have hsought := hrequest request (List.mem_singleton_self _)
    have hplain : request.columns? = none ∧ request.joined? = none := by
      cases request with
      | load | filterKey | build | run => exact ⟨rfl, rfl⟩
      | _ => exact hsought.elim
    rw [latest_concat, latest_concat, latest_concat, latest_concat, hcolumns, hjoin, hfilter, hplain.1, hplain.2,
      filter?_of_seeksKeys hsought]
    cases hkey : request.key? t with
    | none => rfl
    | some key =>
      have hlast : latest (key? t) [request] = some key := by simp [latest, hkey]
      obtain ⟨c, hc⟩ := condition_of_latest hlast
      simp [Table.soughtClause, hc, Except.toOption]

end Request

theorem mem_of_mem_lastPerField {loads : List (Relation × Bool)} {e : Relation × Bool} (h : e ∈ lastPerField loads) :
    e ∈ loads := by
  obtain ⟨field, -, hlast⟩ := List.mem_filterMap.1 h
  exact (List.mem_filter.1 (List.mem_of_getLast? hlast)).1

/-- What is joined to a query has been loaded with it. -/
theorem exists_load_of_joined {t : Table} {requests : List Request} {r : Relation}
    (h : r ∈ (Query.settled t requests).joined) : ∃ later, Request.load r later ∈ requests := by
  obtain ⟨⟨r', later⟩, he, rfl⟩ := List.mem_map.1 h
  obtain ⟨request, hmem, hload⟩ := List.mem_filterMap.1 (mem_of_mem_lastPerField (List.mem_filter.1 he).1)
  cases request with
  | load r'' later' =>
    rw [Request.relation?] at hload
    split at hload
    · obtain ⟨rfl, rfl⟩ := Prod.mk.inj (Option.some.inj hload)
      exact ⟨_, hmem⟩
    · cases hload
  | _ => cases hload

end Builder

/-! ### Statements for keys -/

/-- The names in a query for keys of a table with relations joined to it. -/
def Table.queryNames (t : Table) (joined : List Relation) : List String :=
  t.keyNames ++ joined.flatMap Relation.joinedNames

section Statements

variable {t : Table} {r : Relation} {joined : List Relation}

theorem Table.mem_queryNames (hr : r ∈ joined) {n : String} (hn : n ∈ r.joinedNames) : n ∈ t.queryNames joined :=
  List.mem_append_right _ (List.mem_flatMap_of_mem hr hn)

theorem Relation.params_of_mem_joins : ∀ f ∈ r.joins, f.params = [] := by
  rw [joins]
  cases r.route <;> simp [leftJoin, Fragment.plain]

/-- The condition on the keys that are sought, with its parameters. -/
theorem Builder.sought_condition (t : Table) (requests : List Request) : ∃ condition : Option Fragment,
    t.soughtClause (latest (Request.key? t) requests) = condition.map .ok ∧ (∀ c ∈ condition, c.Named t.keyNames) ∧
      t.soughtParams (latest (Request.key? t) requests) = .ok (clauseParams condition) := by
  cases hkey : latest (Request.key? t) requests with
  | none => exact ⟨none, rfl, fun c hc => (Option.not_mem_none c hc).elim, rfl⟩
  | some key =>
    obtain ⟨c, hc⟩ := Request.condition_of_latest hkey
    obtain ⟨hnamed, values, hvalues, hparams⟩ := Table.keyCondition_eq_ok hc
    refine ⟨some c, ?_, fun c' hc' => Option.mem_some.1 hc' ▸ hnamed, ?_⟩
    · rw [Table.soughtClause, Option.bind_some, hc]
      rfl
    · rw [Table.soughtParams, hvalues]
      exact hparams

theorem Query.named_compile {q : Query} {condition : Option Fragment}
    (hq : q.clauses = ⟨none, none, condition.map .ok⟩) (hc : ∀ c ∈ condition, c.Named q.table.keyNames)
    (hr : ∀ r ∈ q.joined, r.HasParts) : ∃ s text, q.compile = .ok s ∧ s.params = clauseParams condition ∧
      s.WordedFrom (q.table.queryNames q.joined) text := by
  have hjoins : ∀ f ∈ q.joined.flatMap Relation.joins, f.Named (q.table.queryNames q.joined) ∧ f.params = [] := by
    intro f hf
    obtain ⟨r, hmem, hf⟩ := List.mem_flatMap.1 hf
    exact ⟨(Relation.named_joins (hr r hmem) f hf).mono fun n hn => Table.mem_queryNames hmem hn,
      Relation.params_of_mem_joins f hf⟩
  have hitems : ∀ text ∈ q.joined.flatMap Relation.joinedItems, Unmarked (q.table.queryNames q.joined) true text := by
    intro text htext
    obtain ⟨r, hmem, htext⟩ := List.mem_flatMap.1 htext
    exact (r.unmarked_joinedItems text htext).mono fun n hn => Table.mem_queryNames hmem hn
  have hcondition : ∀ c ∈ condition, c.Named (q.table.queryNames q.joined) :=
    fun c h => (hc c h).mono fun n hn => List.mem_append_left _ hn
  have htable : q.table.name ∈ q.table.queryNames q.joined := List.mem_append_left _ List.mem_cons_self
  obtain ⟨s, text, hs, hparams, hworded⟩ := @Fragment.named_selectStatement _ _ none none _ _ _ htable
    (fun f hf => (Option.not_mem_none f hf).elim) (fun f hf => (Option.not_mem_none f hf).elim) hcondition hitems
    fun f hf => (hjoins f hf).1
  refine ⟨s, text, by rw [compile, hq]; exact hs, ?_, hworded⟩
  rw [hparams, List.flatMap_eq_nil_iff.2 fun f hf => (hjoins f hf).2]
  rfl

theorem Builder.named_query {requests : List Request} (h : ∀ request ∈ requests, request.SeeksKeys) :
    ∃ s text, ((Opening.query t).builder.after requests).statement = .ok s ∧
      t.soughtParams (latest (Request.key? t) requests) = .ok s.params ∧
      s.WordedFrom (t.queryNames (Query.settled t requests).joined) text := by
  obtain ⟨condition, hcondition, hnamed, hparams⟩ := sought_condition t requests
  have hparts : ∀ r ∈ (Query.settled t requests).joined, r.HasParts := by
    intro r hr
    obtain ⟨later, hload⟩ := exists_load_of_joined hr
    obtain ⟨d, hd⟩ := h _ hload
    exact Relation.hasParts_of_complete hd
  have hclauses := (Request.clauses_of_seeksKeys h).trans (congrArg _ hcondition)
  obtain ⟨s, text, hs, hps, hworded⟩ := Query.named_compile hclauses hnamed hparts
  refine ⟨s, text, ?_, by rw [hps, hparams], hworded⟩
  rw [(coherent_after (.query t) requests).statement_eq, ← compile_bare, bare_after]
  exact hs

theorem Relation.named_batch (hr : r.HasParts) {keys : List Value} {ps : List Param} (hne : keys ≠ [])
    (hps : Param.ofValues keys = .ok ps) :
    ∃ s text, r.batchStatement keys = .ok s ∧ s.params = ps ∧ s.WordedFrom r.batchNames text := by
  have hkey := r.unmarked_batchKey hr
  obtain ⟨c, hc, -, hparams⟩ := Condition.member_ok hkey.markFree hne hps
  have hcolumns : ∀ f ∈ some (Fragment.plain r.batchColumns), f.Named r.batchNames := fun f hf =>
    Option.mem_some.1 hf ▸ Fragment.named_plain (unmarked_batchColumns hr)
  have hcondition : ∀ f ∈ some c, f.Named r.batchNames := fun f hf =>
    Option.mem_some.1 hf ▸ Condition.named_member hkey.worded hkey.markFree hc
  obtain ⟨s, text, hs, hall, hworded⟩ := @Fragment.named_selectStatement _ _ _ _ _ [] [] r.mem_batchNames.2.1
    hcolumns (named_batchJoin hr) hcondition (by simp) (by simp)
  refine ⟨s, text, ?_, ?_, hworded⟩
  · rw [batchStatement, hc, Outcome.ok_bind]
    exact hs
  · have hjoin : clauseParams r.batchJoin = [] := by
      rw [batchJoin]
      cases r.route <;> rfl
    rw [hall, hjoin]
    exact hparams

end Statements

/-- **Names stand for themselves.** Whatever characters the names of tables, columns, fields and pivots have: a query
for keys with any relations joined to it, and a batch of a relation for any keys that can be bound, have a statement
whose marks are those of the values of the keys, in order, and whose quoted sections are the names, before and after
numbering and with question marks again. -/
theorem names_stand_for_themselves :
    (∀ (t : Table) (requests : List Request), (∀ request ∈ requests, request.SeeksKeys) →
      ∃ s text, ((Opening.query t).builder.after requests).statement = .ok s ∧
        t.soughtParams (latest (Request.key? t) requests) = .ok s.params ∧
        s.WordedFrom (t.queryNames (Query.settled t requests).joined) text) ∧
    ∀ (d : Declaration) (r : Relation) (keys : List Value) (ps : List Param),
      d.complete = .ok r → keys ≠ [] → Param.ofValues keys = .ok ps →
      ∃ s text, r.batchStatement keys = .ok s ∧ s.params = ps ∧ s.WordedFrom r.batchNames text :=
  ⟨fun _ _ => Builder.named_query, fun _ _ _ _ hd => Relation.named_batch (Relation.hasParts_of_complete hd)⟩

/-- A table whose names are made of quotes, question marks and what looks like a mark. -/
def oddTable (name : String) : Table := ⟨name, ["'?"], ["'?", "\"$1", "%s"], ["'?"], .copy, none⟩

/-- A relation of such tables, by a table with such names between them. -/
def oddRelation : Relation :=
  ⟨"?\"", .one, .through, oddTable "\"", oddTable "$2", "%s", "'?", ⟨some "'", some "\"\"", some "?"⟩⟩

theorem names_stand_for_themselves_odd :
    (∃ s text, ((Opening.query (oddTable "\"")).builder.after
        [.load oddRelation false, .filterKey (.list [.integer 7, .text "?"])]).statement = .ok s ∧
      s.params = [⟨.integer, .integer 7⟩, ⟨.text, .text "?"⟩] ∧
      s.WordedFrom ((oddTable "\"").queryNames [oddRelation]) text) ∧
    ∃ s text, oddRelation.batchStatement [.text "$9"] = .ok s ∧ s.params = [⟨.text, .text "$9"⟩] ∧
      s.WordedFrom oddRelation.batchNames text := by
  have hodd : (⟨"?\"", .one, .through, oddTable "\"", oddTable "$2", some "%s", none,
      ⟨some "'", some "\"\"", some "?"⟩⟩ : Declaration).complete = .ok oddRelation := rfl
  have hseeks : ∀ request ∈ [Request.load oddRelation false, .filterKey (.list [.integer 7, .text "?"])],
      request.SeeksKeys := by
    simp only [List.forall_mem_cons, List.not_mem_nil, false_implies, implies_true, and_true]
    exact ⟨⟨_, hodd⟩, trivial⟩
  have hjoined : (Query.settled (oddTable "\"") [.load oddRelation false,
      .filterKey (.list [.integer 7, .text "?"])]).joined = [oddRelation] := rfl
  have hvalues : (oddTable "\"").soughtParams (latest (Request.key? (oddTable "\"")) [.load oddRelation false,
      .filterKey (.list [.integer 7, .text "?"])]) = .ok [⟨.integer, .integer 7⟩, ⟨.text, .text "?"⟩] := rfl
  obtain ⟨s, text, hs, hparams, hworded⟩ := names_stand_for_themselves.1 (oddTable "\"") _ hseeks
  rw [hvalues] at hparams
  rw [hjoined] at hworded
  exact ⟨⟨s, text, hs, (Except.ok.inj hparams).symm, hworded⟩,
    names_stand_for_themselves.2 _ _ [.text "$9"] _ hodd (by simp) rfl⟩

end RecordSql
