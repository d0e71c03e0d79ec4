import RecordSql.Proofs.Model.Recovery
import RecordSql.Proofs.Table.Sending

/-!
# What loaded records hold

A record of an answer was read from a row and has then been given something for each relation: first for those that are
joined, then for those that are loaded later, in order. What it is given is made of rows of the target: a list, or one
record or null.
-/

namespace RecordSql

namespace Value

variable {v v' w x : Value} {field : String} {cells entries entries' : Row}

/-- The value with the entries of a row set as fields, one after the other. -/
def assignEach (v : Value) (entries : Row) : Except Failure Value :=
  entries.foldlM (fun v e => v.assign e.1 e.2) v

theorem assignEach_append (h : v.assignEach entries = .ok v') (h' : v'.assignEach entries' = .ok w) :
    v.assignEach (entries ++ entries') = .ok w := by
  rw [assignEach, List.foldlM_append]
  exact Outcome.bind_eq_ok.2 ⟨v', h, h'⟩

theorem assignEach_singleton (h : v.assign field x = .ok v') : v.assignEach [(field, x)] = .ok v' := by
  rw [assignEach, List.foldlM_cons]
  exact Outcome.bind_eq_ok.2 ⟨v', h, rfl⟩

/-- An object stays one of its class. -/
theorem assignEach_record (id : Identity) (cls : RecordClass) (own inherited entries : Row) :
    (record id cls own inherited).assignEach entries = .ok (.record id cls (own.update entries) inherited) := by
  induction entries generalizing own with
  | nil => rfl
  | cons e entries ih => exact ih (own.set e.1 e.2)

/-- A dictionary has the fields that it did not have behind those that it had. -/
theorem assignEach_toValue (h : ((cells ++ entries).map (·.1)).Nodup) :
    cells.toValue.assignEach entries = .ok (cells ++ entries).toValue := by
  induction entries generalizing cells with
  | nil => rw [List.append_nil]; rfl
  | cons e entries ih =>
    have hsplit : cells ++ e :: entries = (cells ++ [e]) ++ entries := by simp
    have hnew : e.1 ∉ cells.map (·.1) := by
      rw [List.map_append, List.nodup_append] at h
      exact fun hmem => h.2.2 _ hmem _ List.mem_cons_self rfl
    have hset : (Dict.ofRow cells).set (.text e.1) e.2 = Dict.ofRow (cells ++ [e]) := by
      rw [Dict.set_ofRow, Row.set_of_not_mem hnew]
    rw [hsplit] at h ⊢
    rw [← ih h]
    show (Value.dict none ((Dict.ofRow cells).set (.text e.1) e.2)).assignEach entries = _
    rw [hset]
    rfl

end Value

namespace Relation

variable {σ : Type} {c : Connector σ} {r : Relation} {records records' : List Value} {rows : List Row} {s t : σ}

/-- What a record is given for a relation: the records of rows of the target, or one of them; null if there is none. -/
inductive Gives (r : Relation) : Value → Prop
  | many (items : List Value) (hr : r.reach = .many) (h : ∀ v ∈ items, ∃ row, r.target.plan.run row = .ok v) :
    Gives r (.list items)
  | one (v : Value) (row : Row) (hr : r.reach = .one) (h : r.target.plan.run row = .ok v) : Gives r v
  | none (hr : r.reach = .one) : Gives r .null

/-- Entries for relations, one for each. -/
def Given (rs : List Relation) (entries : Row) : Prop :=
  List.Forall₂ (fun r e => e.1 = r.field ∧ r.Gives e.2) rs entries

/-- A record that has been given something for each of the relations. -/
def Gains (rs : List Relation) (v v' : Value) : Prop := ∃ entries, Given rs entries ∧ v.assignEach entries = .ok v'

theorem Given.fields {rs : List Relation} {entries : Row} (h : Given rs entries) :
    entries.map (·.1) = rs.map Relation.field := by
  induction h with
  | nil => rfl
  | cons he _ ih => rw [List.map_cons, List.map_cons, he.1, ih]

theorem Gains.trans {rs rs' : List Relation} {u v w : Value} (h : Gains rs u v) (h' : Gains rs' v w) :
    Gains (rs ++ rs') u w := by
  obtain ⟨entries, hgiven, hassign⟩ := h
  obtain ⟨entries', hgiven', hassign'⟩ := h'
  exact ⟨entries ++ entries', List.rel_append hgiven hgiven', Value.assignEach_append hassign hassign'⟩

theorem gains_of_assign {v v' x : Value} (hx : r.Gives x) (h : v.assign r.field x = .ok v') : Gains [r] v v' :=
  ⟨[(r.field, x)], .cons ⟨rfl, hx⟩ .nil, Value.assignEach_singleton h⟩

/-! ### Joined and loaded relations -/

theorem gives_of_joined (hone : r.reach = .one) {row : Row} {x : Value} (h : r.joinedPlan.run row = .ok x) :
    r.Gives x := by
  rw [JoinedPlan.run] at h
  split at h
  · obtain rfl := Except.ok.inj h
    exact .none hone
  · exact .one x _ hone h

/-- What groups of replies have for a row. -/
theorem gives_attached {groups : Groups} (h : (r.fetch c rows).run s = (.ok groups, t)) {row : Row}
    (hrow : row ∈ rows) : r.Gives (r.attached groups row) := by
  obtain ⟨keys, hkeys, hfetched⟩ := fetch_eq_ok.1 h
  obtain ⟨replies, hgroups⟩ : ∃ replies : List Row, replies.foldlM r.addToGroup [] = .ok groups := by
    rcases hfetched with ⟨-, rfl, -⟩ | ⟨-, -, replies, -, -, hgroups⟩
    · exact ⟨[], rfl⟩
    · exact ⟨replies, hgroups⟩
  have hmatching := matching_of_groups hgroups (checkKey_parentValue hkeys hrow)
  have hread : ∀ v ∈ groups.get (r.parentValue row), ∃ row, r.target.plan.run row = .ok v := by
    intro v hv
    obtain ⟨reply, -, hreply⟩ := Outcome.of_mem_of_mapM_eq_ok hmatching hv
    exact ⟨_, hreply⟩
  rw [attached]
  generalize groups.get (r.parentValue row) = related at hread
  cases hr : r.reach with
  | many => exact .many related hr hread
  | one => cases related with
    | nil => exact .none hr
    | cons v related =>
      obtain ⟨row, hrow⟩ := hread v List.mem_cons_self
      exact .one v row hr hrow

theorem gains_load (h : (r.load c records rows).run s = (⟨records', none⟩, t)) :
    ∀ record' ∈ records', ∃ record ∈ records, Gains [r] record record' := by
  intro record' hrecord'
  obtain ⟨groups, hfetch, hattach⟩ := load_eq_ok.1 h
  obtain ⟨p, hp, hassign⟩ := Outcome.of_mem_of_mapM_eq_ok (attach_eq_ok.1 hattach).2 hrecord'
  obtain ⟨hrecord, hrow⟩ := List.of_mem_zip hp
  exact ⟨p.1, hrecord, gains_of_assign (gives_attached hfetch hrow) hassign⟩

end Relation

open RecordSql.Relation (Gains)

/-- The record of a row gains the joined relations. -/
theorem gains_of_mapRow {root : Plan} {rs : List Relation} (hone : ∀ r ∈ rs, r.reach = .one) {row : Row} {v : Value}
    (h : mapRow root (rs.map Relation.joinedPlan) row = .ok v) :
    ∃ base, root.run row.base = .ok base ∧ Gains rs base v := by
  obtain ⟨base, hbase, hfold⟩ := Outcome.bind_eq_ok.1 h
  refine ⟨base, hbase, ?_⟩
  clear hbase h
  induction rs generalizing base with
  | nil =>
    obtain rfl := Except.ok.inj hfold
    exact ⟨[], .nil, rfl⟩
  | cons r rs ih =>
    obtain ⟨hr, hrs⟩ := List.forall_mem_cons.1 hone
    rw [List.map_cons, List.foldlM_cons] at hfold
    obtain ⟨next, hnext, hfold⟩ := Outcome.bind_eq_ok.1 hfold
    obtain ⟨x, hx, hassign⟩ := Outcome.bind_eq_ok.1 hnext
    exact (Relation.gains_of_assign (Relation.gives_of_joined hr hx) hassign).trans (ih hrs next hfold)

namespace Query

variable {σ : Type} {c : Connector σ} {q : Query} {a a' : Answer} {s t : σ}

theorem gains_loadAll {rs : List Relation} (h : (loadAll c q rs a).run s = (.ok a', t)) :
    ∀ record' ∈ a'.records, ∃ record ∈ a.records, Gains rs record record' := by
  induction rs generalizing a s with
  | nil =>
    obtain rfl := Except.ok.inj (Prod.mk.inj h).1
    exact fun record' hrecord' => ⟨record', hrecord', [], .nil, rfl⟩
  | cons r rs ih =>
    cases hload : (r.load c a.records a.rows).run s with
    | mk touched u =>
      obtain ⟨records, failure⟩ := touched
      cases failure with
      | some e =>
        rw [run_loadAll_of_failed hload] at h
        cases h
      | none =>
        rw [run_loadAll_of_loaded hload] at h
        intro record' hrecord'
        obtain ⟨next, hnext, hrest⟩ := ih h record' hrecord'
        obtain ⟨record, hrecord, hfirst⟩ := Relation.gains_load hload next hnext
        exact ⟨record, hrecord, hfirst.trans hrest⟩

/-- The relations of a query, in the order in which records are given something for them. -/
def loads (q : Query) : List Relation := q.joined ++ q.batched

theorem mem_loads {r : Relation} : r ∈ q.loads ↔ ∃ e ∈ q.relations, e.1 = r := by
  rw [loads, joined, batched, ← List.map_append, List.mem_map]
  refine exists_congr fun e => and_congr_left fun _ => ?_
  exact (List.filter_append_perm _ q.relations).mem_iff

theorem nodup_loads (h : (q.relations.map (·.1.field)).Nodup) : (q.loads.map Relation.field).Nodup := by
  rw [loads, joined, batched, ← List.map_append, List.map_map]
  exact (((List.filter_append_perm _ q.relations).map _).nodup_iff).2 h

/-- The records of an answer were read from rows, and have been given something for all relations of the query. -/
theorem gains_of_get (h : (q.get c).run s = (.ok a, t)) :
    ∀ record ∈ a.records, ∃ row base, q.table.plan.run row = .ok base ∧ Gains q.loads base record := by
  intro record hrecord
  obtain ⟨_, rows, u, -, -, hfinish⟩ := getWith_eq_ok.1 h
  obtain ⟨records, _, hmap, hload⟩ := Task.run_bind_eq_ok.1 hfinish
  obtain ⟨hrecords, rfl⟩ := Task.run_ofExcept_eq_ok.1 hmap
  obtain ⟨before, hbefore, hbatched⟩ := gains_loadAll hload record hrecord
  obtain ⟨row, -, hrow⟩ := Outcome.of_mem_of_mapM_eq_ok hrecords hbefore
  have hone : ∀ r ∈ q.joined, r.reach = .one := by
    intro r hr
    obtain ⟨e, he, rfl⟩ := List.mem_map.1 hr
    have hjoin : e.1.canJoin e.2 = true := (List.mem_filter.1 he).2
    rw [Relation.canJoin, Bool.and_eq_true, decide_eq_true_eq] at hjoin
    exact hjoin.1
  obtain ⟨base, hbase, hjoined⟩ := gains_of_mapRow hone hrow
  exact ⟨row.base, base, hbase, hjoined.trans hbatched⟩

end Query

end RecordSql
