import RecordSql.Proofs.Table.Builder
import RecordSql.Proofs.Table.Writing
import RecordSql.Rehearsal.Replies

/-!
# Statements of a query with relations

A query sends its own statement, and after it one for each batched relation to which a row leads, in order. Each of
these asks for the keys of the rows, once for each key, however many rows there are. A query that fails has sent the
first few of these statements.

A record can be a cell of its row. What is put into such a record is then in the row as well, and the rows are no longer
those that were returned. `Showing` says what they are, and that the keys are not touched by it.
-/

namespace RecordSql

/-! ### Rows whose cells are records -/

/-- What can become of a value when its fields are set: it stays the thing that it is, and a bound parameter keeps its
tag. -/
inductive Value.Became : Value → Value → Prop
  | same (v : Value) : Became v v
  | dict (id : Identity) (before after : Dict) : Became (.dict id before) (.dict id after)
  | record (id : Identity) (cls : RecordClass) (before after inherited : Row) :
    Became (.record id cls before inherited) (.record id cls after inherited)
  | param (kind : ParamKind) (before after : Value) : Became (.param kind before) (.param kind after)

namespace Value.Became

variable {u v w : Value}

theorem trans (h : Became u v) (h' : Became v w) : Became u w := by
  cases h with
  | same => exact h'
  | dict id before => cases h' with
    | same | dict => exact .dict id before _
  | record id cls before _ inherited => cases h' with
    | same | record => exact .record id cls before _ inherited
  | param kind before => cases h' with
    | same | param => exact .param kind before _

theorem of_assign {field : String} {x : Value} (h : v.assign field x = .ok w) : Became v w := by
  unfold assign at h
  split at h
  · cases h
    exact .dict _ _ _
  · cases h
    exact .record _ _ _ _ _
  · split at h
    · cases h
    · cases h
      exact .same _
  · split at h
    · cases h
      exact .param _ _ _
    · cases h
      exact .same _
  · cases h
    exact .same _
  · cases h

theorem isNull_eq (h : Became v w) : v.isNull = w.isNull := by
  cases h <;> rfl

end Value.Became

/-- The records of a reader that names a column are the cells of this column. -/
def Reader.Faithful (r : Reader) : Prop :=
  ∀ column, r.source = some column → ∀ row v, r.run row = .ok v → row.get? column = some v

theorem Reader.faithful_cell (column : String) : (cell column).Faithful := by
  rintro _ ⟨⟩ row v h
  replace h : cellOf column row = .ok v := h
  rw [cellOf] at h
  cases hc : row.get? column with
  | none =>
    rw [hc] at h
    cases h
  | some w =>
    rw [hc] at h
    cases h
    rfl

namespace Row

variable {row : Row} {column : String} {v w : Value}

theorem set_set (row : Row) (column : String) (v w : Value) : (row.set column v).set column w = row.set column w := by
  induction row with
  | nil => simp [Row.set]
  | cons e row ih =>
    obtain ⟨k, u⟩ := e
    rw [Row.set, Row.set]
    by_cases h : k = column
    · rw [if_pos h, if_pos h, Row.set, if_pos h]
    · rw [if_neg h, if_neg h, Row.set, if_neg h, ih]

/-- A column of the queried table itself is a column of the row. -/
theorem get?_of_get?_base (h : row.base.get? column = some v) : row.get? column = some v := by
  have hmem := (List.mem_filter.1 (mem_of_get? h)).2
  rw [Bool.and_eq_true, Option.isNone_iff_eq_none, bne_iff_ne] at hmem
  rw [← h, get?_base hmem]

end Row

theorem Plan.get?_of_visible {p : Plan} {row : Row} {column : String} {v : Value}
    (h : (p.visible row.base).get? column = some v) : row.get? column = some v := by
  rw [visible] at h
  split at h
  · exact Row.get?_of_get?_base h
  · rw [Row.get?_pick] at h
    split at h
    · exact Row.get?_of_get?_base h
    · cases h

/-- What is put back again replaces what was put back before. -/
theorem Reader.putBack_putBack {rows : List Row} {before after : List Value} (r : Reader)
    (h : rows.length = before.length) (h' : before.length = after.length) :
    r.putBack (r.putBack rows before) after = r.putBack rows after := by
  rw [putBack, putBack, putBack]
  cases r.source with
  | none => rfl
  | some column =>
    dsimp only
    induction rows generalizing before after with
    | nil => rfl
    | cons row rows ih =>
      cases before with
      | nil => simp at h
      | cons v before => cases after with
        | nil => simp at h'
        | cons w after =>
          rw [List.zipWith_cons_cons, List.zipWith_cons_cons, List.zipWith_cons_cons, Row.set_set,
            ih (by simpa using h) (by simpa using h')]

theorem forall₂_comp {α β γ : Type} {R : α → β → Prop} {S : β → γ → Prop} {T : α → γ → Prop}
    (hT : ∀ a b c, R a b → S b c → T a c) {l : List α} {m : List β} {n : List γ} (h : List.Forall₂ R l m)
    (h' : List.Forall₂ S m n) : List.Forall₂ T l n := by
  induction h generalizing n with
  | nil =>
    cases h'
    exact .nil
  | cons hab _ ih =>
    cases h' with
    | cons hbc h' => exact .cons (hT _ _ _ hab hbc) (ih h')

theorem became_of_foldlM {joined : List JoinedPlan} {row : Row} {v record : Value}
    (h : joined.foldlM (fun r j => do Value.assign r j.field (← j.run row)) v = .ok record) : v.Became record := by
  induction joined generalizing v with
  | nil =>
    cases h
    exact .same _
  | cons j joined ih =>
    rw [List.foldlM_cons] at h
    obtain ⟨w, hw, h⟩ := Outcome.bind_eq_ok.1 h
    obtain ⟨x, -, hw⟩ := Outcome.bind_eq_ok.1 hw
    exact (Value.Became.of_assign hw).trans (ih h)

/-- A record that is a cell of its row when it is made is that cell, with its joined relations put into it. -/
theorem became_of_mapRow {t : Table} {joined : List JoinedPlan} {row : Row} {record : Value} {column : String}
    (ht : t.read.Faithful) (hc : t.read.source = some column) (h : mapRow t.plan joined row = .ok record) :
    ∃ v, row.get? column = some v ∧ v.Became record := by
  obtain ⟨v, hv, h⟩ := Outcome.bind_eq_ok.1 h
  have hread : t.read.run (t.plan.visible row.base) = .ok v := Outcome.mapError_eq_ok.1 hv
  exact ⟨v, Plan.get?_of_visible (ht column hc _ _ hread), became_of_foldlM h⟩

namespace Query

variable {q : Query} {rows : List Row} {a : Answer} {r : Relation}

/-- The rows of an answer are those that were returned, with what has become of the records that are their cells. -/
structure Showing (q : Query) (rows : List Row) (a : Answer) : Prop where
  length : rows.length = a.records.length
  shown : a.rows = q.table.read.putBack rows a.records
  cells : ∀ column, q.table.read.source = some column →
    List.Forall₂ (fun row record => ∃ v, Row.get? row column = some v ∧ v.Became record) rows a.records

theorem showing_answer {records : List Value} (hq : q.table.read.Faithful)
    (h : mapRows q.table.plan (q.joined.map Relation.joinedPlan) rows = .ok records) :
    q.Showing rows (q.answer rows records) :=
  have hrows := Outcome.mapM_eq_ok.1 h
  ⟨hrows.length_eq, rfl, fun _ hc => hrows.imp fun _ _ hrow => became_of_mapRow hq hc hrow⟩

/-- Loading a relation puts it into the records, and into the rows as far as they hold the records. -/
theorem Showing.attach {groups : Groups} {records : List Value} (h : q.Showing rows a)
    (ha : r.attach groups a.records a.rows = ⟨records, none⟩) : q.Showing rows (q.answer a.rows records) := by
  obtain ⟨hlength, hassign⟩ := Relation.attach_eq_ok.1 ha
  have hall : List.Forall₂ (fun v w => Value.Became v w) a.records records := by
    have hzip := (Outcome.mapM_eq_ok.1 hassign).imp fun p _ hp => Value.Became.of_assign hp
    rw [← List.map_fst_zip (Nat.le_of_eq hlength)]
    exact List.forall₂_map_left_iff.2 hzip
  refine ⟨h.length.trans hall.length_eq, ?_, fun column hc => forall₂_comp ?_ (h.cells column hc) hall⟩
  · show q.table.read.putBack a.rows records = _
    rw [h.shown, Reader.putBack_putBack _ h.length hall.length_eq]
    rfl
  · rintro row v w ⟨u, hu, huv⟩ hvw
    exact ⟨u, hu, huv.trans hvw⟩

/-- Parents lead to what they led to when they were returned, unless they lead to it by the record itself. -/
theorem Showing.leads (h : q.Showing rows a) (r : Relation) :
    List.Forall₂ Value.Became (r.leads rows) (r.leads a.rows) := by
  have hall : List.Forall₂ (fun row row' => (r.parentValue row).Became (r.parentValue row')) rows a.rows := by
    rw [h.shown, Reader.putBack]
    cases hs : q.table.read.source with
    | none => exact List.forall₂_same.2 fun row _ => .same _
    | some column =>
      have hcells := h.cells column hs
      dsimp only
      clear h
      generalize a.records = records at hcells
      induction hcells with
      | nil => exact .nil
      | @cons row record _ _ hv _ ih =>
        refine .cons ?_ ih
        obtain ⟨v, hv, hbecame⟩ := hv
        rw [Relation.parentValue, Relation.parentValue, Row.get?_set]
        by_cases hk : r.parentKey = column
        · rw [if_pos hk, hk, hv]
          exact hbecame
        · rw [if_neg hk]
          exact .same _
  rw [Relation.leads, Relation.leads]
  refine List.rel_filter (fun v w hvw => ?_) (List.forall₂_map_left_iff.2 (List.forall₂_map_right_iff.2 hall))
  show (!v.isNull) = true ↔ (!w.isNull) = true
  rw [hvw.isNull_eq]

end Query

/-! ### The statement of a relation -/

/-- Values that are the same key. Of a bound parameter only the tag has to be the same: if it is itself the record, its
value may have been set. -/
def Value.SameKey (v w : Value) : Prop := v = w ∨ ∃ kind x y, v = .param kind x ∧ w = .param kind y

/-- What can be bound is equal to no record. -/
theorem Value.not_eqv_record {v : Value} {p : Param} (hv : Param.ofValue v = .ok p) (hk : v.checkKey = .ok ())
    (id : Identity) (cls : RecordClass) (own inherited : Row) : ¬ v.eqv (.record id cls own inherited) := by
  rw [eqv_iff _ _ hk]
  rintro ⟨f, hf, hrecord⟩
  obtain ⟨n, -, rfl⟩ := Option.map_eq_some_iff.1 hrecord
  cases v with
  | record => cases hv
  | symbol id kind name v => cases kind <;> simp [keyForm?] at hf
  | _ => simp [keyForm?] at hf

/-- A key for which something was bound is what it was, or a parameter still. -/
theorem Value.Became.sameKey {v w key : Value} {p : Param} (h : v.Became w) (hw : w.checkKey = .ok ())
    (hp : Param.ofValue key = .ok p) (hk : key.checkKey = .ok ()) (hkw : key = w ∨ key.eqv w = true) :
    v.SameKey w := by
  cases h with
  | same => exact .inl rfl
  | dict => cases hw
  | record id cls before after inherited =>
    rcases hkw with rfl | hkw
    · cases hp
    · exact absurd hkw (not_eqv_record hp hk _ _ _ _)
  | param kind before after => exact .inr ⟨kind, before, after, rfl, rfl⟩

namespace Relation

variable {σ : Type} {c : Connector σ} {r : Relation} {rows : List Row} {s : σ} {calls : List Call}

/-- The statement asks for the keys of the rows: for what their parents lead to, once for each key. -/
def Asks (r : Relation) (rows : List Row) (statement : Statement) : Prop :=
  ∃ values keys, List.Forall₂ Value.SameKey (r.leads rows) values ∧
    keys.Sublist values ∧ (∀ v ∈ values, ∃ key ∈ keys, key = v ∨ key.eqv v = true) ∧
    keys.Pairwise (fun v w => ¬ v.eqv w) ∧
    r.batchStatement keys = .ok statement ∧ Param.ofValues keys = .ok statement.params

/-- The statement that is sent for rows asks for the keys of the rows that were returned. -/
theorem asks_of_batchStatement {rows' : List Row} {statement : Statement}
    (h : List.Forall₂ Value.Became (r.leads rows) (r.leads rows')) (hkeys : ∀ v ∈ r.leads rows', v.checkKey = .ok ())
    (hne : r.leads rows' ≠ []) (hb : r.batchStatement (distinct (r.leads rows')) = .ok statement) :
    r.Asks rows statement := by
  have hbound := params_batchStatement (mt distinct_eq_nil_iff.1 hne) hb
  refine ⟨r.leads rows', distinct (r.leads rows'), ?_, distinct_sublist _, fun v => exists_distinct,
    pairwise_distinct _, hb, hbound⟩
  refine List.forall₂_iff_zip.2 ⟨h.length_eq, fun {v w} hvw => ?_⟩
  obtain ⟨key, hkey, hkw⟩ := exists_distinct (List.of_mem_zip hvw).2
  obtain ⟨p, hp⟩ := Outcome.exists_mapM_eq_ok.1 ⟨_, hbound⟩ key hkey
  exact ((List.forall₂_iff_zip.1 h).2 hvw).sameKey (hkeys w (List.of_mem_zip hvw).2) hp
    (hkeys key ((distinct_sublist _).subset hkey)) hkw

theorem run_exchange_traced {keys : List Value} {statement : Statement} (hb : r.batchStatement keys = .ok statement)
    (c : Connector σ) (s : σ) (calls : List Call) :
    (exchange c.traced r keys).run (s, calls) = (((exchange c r keys).run s).1, ((exchange c r keys).run s).2,
      calls ++ [⟨statement, ((c.run statement).run (c.log (r.batchLine keys) s)).1⟩]) := by
  have hnote : (c.note (r.batchLine keys)).run s = (.ok (), c.log (r.batchLine keys) s) := rfl
  have hnote' : (c.traced.note (r.batchLine keys)).run (s, calls) = (.ok (), c.log (r.batchLine keys) s, calls) := rfl
  have hrun := Connector.run_traced c statement (c.log (r.batchLine keys) s) calls
  rw [exchange, exchange, hb, Task.ofExcept_ok_bind, Task.ofExcept_ok_bind, Task.run_bind_of_ok hnote,
    Task.run_bind_of_ok hnote', Task.run_bind, Task.run_bind, hrun]
  cases (c.run statement).run (c.log (r.batchLine keys) s) with
  | mk outcome t => cases outcome <;> rfl

/-- Fetching sends one statement if a row leads somewhere and the keys can be bound, and else nothing; and then it
succeeds only if no row leads anywhere. -/
theorem run_fetch_traced (c : Connector σ) (r : Relation) (rows : List Row) (s : σ) (calls : List Call) :
    ∃ sent, (r.fetch c.traced rows).run (s, calls) =
        (((r.fetch c rows).run s).1, ((r.fetch c rows).run s).2, calls ++ sent) ∧
      (sent = [] ∧ (∀ groups, ((r.fetch c rows).run s).1 = .ok groups → r.leads rows = []) ∨
        r.leads rows ≠ [] ∧ (∀ v ∈ r.leads rows, v.checkKey = .ok ()) ∧
          ∃ call, sent = [call] ∧ r.batchStatement (distinct (r.leads rows)) = .ok call.statement) := by
  cases hk : r.collectKeys rows with
  | error e =>
    refine ⟨[], ?_, .inl ⟨rfl, ?_⟩⟩
    · rw [run_fetch_of_error hk, run_fetch_of_error hk, List.append_nil]
    · rw [run_fetch_of_error hk]
      rintro groups ⟨⟩
  | ok keys =>
    obtain ⟨hkeys, rfl⟩ := collectKeys_eq_ok.1 hk
    by_cases hnil : r.leads rows = []
    · rw [hnil] at hk
      exact ⟨[], by rw [run_fetch_of_nil hk, run_fetch_of_nil hk, List.append_nil], .inl ⟨rfl, fun _ _ => hnil⟩⟩
    · have hne := mt distinct_eq_nil_iff.1 hnil
      rw [run_fetch_of_keys hk hne, run_fetch_of_keys hk hne]
      cases hb : r.batchStatement (distinct (r.leads rows)) with
      | error e =>
        refine ⟨[], ?_, .inl ⟨rfl, ?_⟩⟩
        · rw [exchange, exchange, hb, List.append_nil]
          rfl
        · rw [exchange, hb]
          rintro groups ⟨⟩
      | ok statement =>
        exact ⟨_, run_exchange_traced hb c s calls, .inr ⟨hnil, hkeys, _, rfl, rfl⟩⟩

end Relation

namespace Query

variable {σ : Type} {q : Query} {rows : List Row} {a : Answer}

/-- The batched relations to which one of the rows leads, in order. -/
def leading (rs : List Relation) (rows : List Row) : List Relation :=
  rs.filter fun r => rows.any fun row => !(r.parentValue row).isNull

theorem leads_ne_nil_iff {r : Relation} : r.leads rows ≠ [] ↔ (rows.any fun row => !(r.parentValue row).isNull) := by
  rw [Relation.leads, ne_eq, List.filter_eq_nil_iff]
  simp

theorem leading_cons (r : Relation) (rs : List Relation) (rows : List Row) :
    leading (r :: rs) rows = if r.leads rows = [] then leading rs rows else r :: leading rs rows := by
  rw [leading, List.filter_cons, ← leading]
  by_cases h : r.leads rows = []
  · rw [if_pos h, if_neg (mt leads_ne_nil_iff.2 (not_not_intro h))]
  · rw [if_neg h, if_pos (leads_ne_nil_iff.1 h)]

/-- Loading a relation sends its statement if a row leads somewhere; else, or if it fails before, nothing. -/
theorem load_sends (c : Connector σ) (r : Relation) (h : q.Showing rows a) (s : σ) (calls : List Call) :
    ∃ sent, (r.load c.traced a.records a.rows).run (s, calls) =
        (((r.load c a.records a.rows).run s).1, ((r.load c a.records a.rows).run s).2, calls ++ sent) ∧
      (sent = [] ∧ (((r.load c a.records a.rows).run s).1.failure = none → r.leads rows = []) ∨
        r.leads rows ≠ [] ∧ ∃ call, sent = [call] ∧ r.Asks rows call.statement) := by
  obtain ⟨sent, hfetch, hsent⟩ := Relation.run_fetch_traced c r a.rows s calls
  have hleads := h.leads r
  have hnil : r.leads a.rows = [] ↔ r.leads rows = [] := by
    rw [← List.length_eq_zero_iff, ← hleads.length_eq, List.length_eq_zero_iff]
  refine ⟨sent, ?_, ?_⟩
  · cases hf : (r.fetch c a.rows).run s with
    | mk outcome t =>
      rw [hf] at hfetch
      cases outcome with
      | error e => rw [Relation.run_load_of_error hf, Relation.run_load_of_error hfetch]
      | ok groups => rw [Relation.run_load_of_ok hf, Relation.run_load_of_ok hfetch]
  · rcases hsent with ⟨rfl, hnone⟩ | ⟨hne, hkeys, call, rfl, hb⟩
    · refine .inl ⟨rfl, fun hload => ?_⟩
      cases hf : (r.fetch c a.rows).run s with
      | mk outcome t => cases outcome with
        | error e =>
          rw [Relation.run_load_of_error hf] at hload
          cases hload
        | ok groups => exact hnil.1 (hnone groups (by rw [hf]))
    · exact .inr ⟨mt hnil.2 hne, call, rfl, Relation.asks_of_batchStatement hleads hkeys hne hb⟩

/-- What was loaded well is shown by the answer that goes on. -/
theorem Showing.load {c : Connector σ} {r : Relation} {records : List Value} {s t : σ} (h : q.Showing rows a)
    (hload : (r.load c a.records a.rows).run s = (⟨records, none⟩, t)) : q.Showing rows (q.answer a.rows records) := by
  obtain ⟨groups, -, ha⟩ := Relation.load_eq_ok.1 hload
  exact h.attach ha

/-- Loading relations sends the statements of those to which a row leads, in order; all of them if it succeeds. -/
theorem loadAll_sends (c : Connector σ) (rs : List Relation) (h : q.Showing rows a) (s : σ) (calls : List Call) :
    ∃ sent asked, (loadAll c.traced q rs a).run (s, calls) =
        (((loadAll c q rs a).run s).1, ((loadAll c q rs a).run s).2, calls ++ sent) ∧
      asked <+: leading rs rows ∧ List.Forall₂ (fun r call => r.Asks rows call.statement) asked sent ∧
      ∀ a', ((loadAll c q rs a).run s).1 = .ok a' → asked = leading rs rows := by
  induction rs generalizing a s calls with
  | nil => exact ⟨[], [], by rw [List.append_nil]; rfl, List.nil_prefix, .nil, fun _ _ => rfl⟩
  | cons r rest ih =>
    obtain ⟨first, htraced, hfirst⟩ := load_sends c r h s calls
    rw [leading_cons]
    cases hload : (r.load c a.records a.rows).run s with
    | mk touched t =>
      obtain ⟨records, failure⟩ := touched
      rw [hload] at htraced hfirst
      cases failure with
      | some e =>
        -- what was sent for this relation is all
        rw [run_loadAll_of_failed hload, run_loadAll_of_failed htraced]
        rcases hfirst with ⟨rfl, -⟩ | ⟨hne, call, rfl, hasks⟩
        · exact ⟨[], [], rfl, List.nil_prefix, .nil, nofun⟩
        · refine ⟨[call], [r], rfl, ?_, .cons hasks .nil, nofun⟩
          rw [if_neg hne]
          exact List.cons_prefix_cons.2 ⟨rfl, List.nil_prefix⟩
      | none =>
        obtain ⟨later, asked, hlater, hprefix, hasks, hall⟩ := ih (h.load hload) t (calls ++ first)
        rw [run_loadAll_of_loaded hload, run_loadAll_of_loaded htraced, hlater, List.append_assoc]
        rcases hfirst with ⟨rfl, hnil⟩ | ⟨hne, call, rfl, hcall⟩
        · rw [if_pos (hnil rfl)]
          exact ⟨later, asked, rfl, hprefix, hasks, hall⟩
        · rw [if_neg hne]
          refine ⟨call :: later, r :: asked, rfl, List.cons_prefix_cons.2 ⟨rfl, hprefix⟩, .cons hcall hasks, ?_⟩
          exact fun a' ha => congrArg (r :: ·) (hall a' ha)

/-- If no records can be made of the rows, nothing more is sent. -/
theorem finish_sends (hq : q.table.read.Faithful) (c : Connector σ) (rs : List Relation) (rows : List Row) (s : σ)
    (calls : List Call) :
    ∃ sent asked, (finish c.traced q rs rows).run (s, calls) =
        (((finish c q rs rows).run s).1, ((finish c q rs rows).run s).2, calls ++ sent) ∧
      asked <+: leading rs rows ∧ List.Forall₂ (fun r call => r.Asks rows call.statement) asked sent ∧
      ∀ a', ((finish c q rs rows).run s).1 = .ok a' → asked = leading rs rows := by
  rw [finish, finish]
  cases hm : mapRows q.table.plan (q.joined.map Relation.joinedPlan) rows with
  | error e => exact ⟨[], [], by rw [List.append_nil]; rfl, List.nil_prefix, .nil, nofun⟩
  | ok records => exact loadAll_sends c rs (showing_answer hq hm) s calls

/-- Requests to a new query leave the last relation of each field, in the order in which the fields first appear. -/
theorem relations_of_after {t : Table} {requests : List Builder.Request}
    (h : (Builder.Opening.query t).builder.after requests = .query q) :
    q.relations = Builder.lastPerField (requests.filterMap (Builder.Request.relation? t)) := by
  have hbare := Builder.bare_after (.query t) requests
  rw [h] at hbare
  exact congrArg Query.relations (Builder.query.inj hbare)

/-- **Statements of a query.** A query sends its own statement, and after it one for each batched relation to which a row
that came back leads: as many as there are such relations, in the order in which their fields were first set, and each
asks for the keys of the rows, once for each. A query that fails has sent the first few of these, or nothing if it has
no statement. -/
theorem sends_one_per_relation (hq : q.table.read.Faithful) (c : Connector σ) (s : σ) :
    (∀ t requests, (Builder.Opening.query t).builder.after requests = .query q →
      q.relations = Builder.lastPerField (requests.filterMap (Builder.Request.relation? t))) ∧
    ∃ calls, (q.get c.traced).run (s, []) = (((q.get c).run s).1, ((q.get c).run s).2, calls) ∧
      match q.statement with
      | .error e => ((q.get c).run s).1 = .error e ∧ calls = []
      | .ok main => ∃ sent, calls = ⟨main, ((c.run main).run s).1⟩ :: sent ∧
        match ((c.run main).run s).1 with
        | .error e => ((q.get c).run s).1 = .error e ∧ sent = []
        | .ok rows => ∃ asked, asked <+: leading q.batched rows ∧
          List.Forall₂ (fun r call => r.Asks rows call.statement) asked sent ∧
          ∀ a, ((q.get c).run s).1 = .ok a →
            asked = leading q.batched rows ∧ calls.length = 1 + (leading q.batched rows).length := by
  refine ⟨fun t requests => relations_of_after, ?_⟩
  cases hs : q.statement with
  | error e => exact ⟨[], by rw [run_get_of_error hs, run_get_of_error hs], by rw [run_get_of_error hs], rfl⟩
  | ok main =>
    rw [run_get_of_ok hs, run_get_of_ok hs]
    dsimp only
    have htraced := Connector.run_traced c main s []
    cases hrun : (c.run main).run s with
    | mk outcome t =>
      rw [hrun] at htraced
      cases outcome with
      | error e =>
        rw [Task.run_bind_of_error hrun, Task.run_bind_of_error htraced]
        exact ⟨_, rfl, [], rfl, rfl, rfl⟩
      | ok rows =>
        rw [Task.run_bind_of_ok hrun, Task.run_bind_of_ok htraced]
        obtain ⟨sent, asked, hfinish, hprefix, hasks, hall⟩ := finish_sends hq c q.batched rows t [⟨main, .ok rows⟩]
        refine ⟨_, hfinish, sent, rfl, asked, hprefix, hasks, fun a ha => ?_⟩
        obtain rfl := hall a ha
        exact ⟨rfl, by rw [List.singleton_append, List.length_cons, ← hasks.length_eq, Nat.add_comm]⟩

end Query

/-- Users of whom the profile is the record. -/
def profiles : Table := ⟨"users", ["id"], ["id", "profile"], ["id"], .cell "profile", none⟩

def postsOfProfiles : Relation := { Relation.postsOfUsers with source := profiles }

/-- The posts by a column that no user has. -/
def draftsOfProfiles : Relation := { postsOfProfiles with field := "drafts", modelKey := "draft" }

def profileQuery : Query :=
  ⟨profiles, ⟨none, none, none⟩, [(draftsOfProfiles, false), (postsOfProfiles, false)], none⟩

def profileRows : List Row :=
  [[("id", .integer 1), ("profile", .dict none [])], [("id", .truth true), ("profile", .dict none [])],
    [("id", .null), ("profile", .dict none [])]]

/-- Two users with equal keys and one without a key: their posts are asked for once, and nothing else is. -/
theorem sends_one_per_relation_profiles : profileQuery.table.read.Faithful ∧
    let ran := (profileQuery.get Rehearsal.connector.traced).run (.ofList [.ok profileRows], [])
    ran.1.isOk = true ∧ ∃ main posts, ran.2.2 = [main, posts] ∧ postsOfProfiles.Asks profileRows posts.statement := by
  have hfaithful : profileQuery.table.read.Faithful := Reader.faithful_cell "profile"
  obtain ⟨-, calls, hget, hcalls⟩ := Query.sends_one_per_relation hfaithful Rehearsal.connector
    (.ofList [.ok profileRows])
  have hok : ((profileQuery.get Rehearsal.connector).run (.ofList [.ok profileRows])).1.isOk = true := by decide +kernel
  have hleading : Query.leading profileQuery.batched profileRows = [postsOfProfiles] := by rfl
  have hreply : ∀ main, ((Rehearsal.connector.run main).run (.ofList [.ok profileRows])).1 = .ok profileRows :=
    fun _ => rfl
  refine ⟨hfaithful, ?_⟩
  dsimp only
  rw [hget]
  cases hstatement : profileQuery.statement with
  | error e =>
    rw [hstatement] at hcalls
    rw [hcalls.1] at hok
    cases hok
  | ok main =>
    rw [hstatement] at hcalls
    obtain ⟨sent, rfl, hsent⟩ := hcalls
    rw [hreply] at hsent
    obtain ⟨asked, -, hasks, hall⟩ := hsent
    generalize ((profileQuery.get Rehearsal.connector).run (.ofList [.ok profileRows])).1 = outcome at hok hall
    cases outcome with
    | error e => cases hok
    | ok a =>
      obtain ⟨rfl, -⟩ := hall a rfl
      rw [hleading] at hasks
      obtain ⟨call, _, hcall, hnil, rfl⟩ := List.forall₂_cons_left_iff.1 hasks
      cases hnil
      exact ⟨rfl, _, call, rfl, hcall⟩

end RecordSql
