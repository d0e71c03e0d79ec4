import RecordSql.Proofs.Relation.Attachment
import RecordSql.Proofs.Table.Loading

/-!
# The order of batched relations

It does not matter in which order the batched relations of a query are loaded, if they have different fields and what a
statement is answered with depends on nothing else. The keys are read from the rows, which stay as they are even if a
relation is put in the place of a column that leads to another one; so each relation is given the same in any order, and
different fields can be set in any order.
-/

namespace RecordSql

open Outcome (Agree)
open Value (SameFields)

/-! ### Lists of records -/

/-- Records with the same fields, one by one. -/
abbrev SameRecords : List Value → List Value → Prop := List.Forall₂ SameFields

theorem sameRecords_refl (records : List Value) : SameRecords records records :=
  List.forall₂_same.2 fun v _ => .same v

theorem sameRecords_trans (vs ws us : List Value) (h : SameRecords vs ws) (h' : SameRecords ws us) :
    SameRecords vs us := by
  induction h generalizing us with
  | nil => exact h'
  | cons hv _ ih => cases h' with
    | cons hw hrest => exact .cons (hv.trans hw) (ih _ hrest)

/-- What a connector answers to a statement depends on the statement alone. -/
def Connector.Constant {σ : Type} (c : Connector σ) : Prop :=
  ∀ statement s t, ((c.run statement).run s).1 = ((c.run statement).run t).1

namespace Relation

variable {σ : Type} {c : Connector σ} {r : Relation} {records : List Value} {rows : List Row} {groups : Groups}

/-! ### Attaching -/

/-- The records, if the operation on them has succeeded. -/
def Touched.outcome (touched : Touched) : Except Failure (List Value) :=
  match touched.failure with
  | none => .ok touched.records
  | some e => .error e

theorem outcome_attach_cons (r : Relation) (groups : Groups) (v : Value) (records : List Value) (row : Row)
    (rows : List Row) : (r.attach groups (v :: records) (row :: rows)).outcome =
      v.assign r.field (r.attached groups row) >>= fun v' => (r.attach groups records rows).outcome.map (v' :: ·) := by
  rw [attach]
  cases v.assign r.field (r.attached groups row) with
  | error e => rfl
  | ok v' =>
    rw [Outcome.ok_bind]
    dsimp only
    cases hrest : r.attach groups records rows with
    | mk records' failure => cases failure <;> rfl

theorem agree_attach (r : Relation) (groups : Groups) (rows : List Row) {records records' : List Value}
    (h : SameRecords records records') :
    Agree SameRecords (r.attach groups records rows).outcome (r.attach groups records' rows).outcome := by
  induction h generalizing rows with
  | nil => exact .refl sameRecords_refl _
  | cons hv hrest ih => cases rows with
    | nil => exact .error _ _
    | cons row rows =>
      rw [outcome_attach_cons, outcome_attach_cons]
      exact (hv.assign r.field _).bind fun hv' => (ih rows).map fun hvs => .cons hv' hvs

/-- Attaching two relations to a first record and then to the others. -/
theorem agree_attach_cons (r r' : Relation) (groups groups' : Groups) (v : Value) (records : List Value) (row : Row)
    (rows : List Row) :
    Agree (· = ·) ((r.attach groups (v :: records) (row :: rows)).outcome >>=
        fun vs => (r'.attach groups' vs (row :: rows)).outcome)
      ((v.assign r.field (r.attached groups row) >>= (·.assign r'.field (r'.attached groups' row))) >>= fun v' =>
        ((r.attach groups records rows).outcome >>= fun vs => (r'.attach groups' vs rows).outcome).map (v' :: ·)) := by
  have hsteps : ((r.attach groups (v :: records) (row :: rows)).outcome >>=
      fun vs => (r'.attach groups' vs (row :: rows)).outcome) =
      v.assign r.field (r.attached groups row) >>= fun v₁ => (r.attach groups records rows).outcome >>= fun vs =>
        v₁.assign r'.field (r'.attached groups' row) >>= fun v' =>
          (r'.attach groups' vs rows).outcome.map (v' :: ·) := by
    rw [outcome_attach_cons, bind_assoc]
    refine bind_congr fun v₁ => ?_
    cases (r.attach groups records rows).outcome with
    | error e => rfl
    | ok vs => exact outcome_attach_cons r' groups' v₁ vs row rows
  rw [hsteps]
  exact .interchange _ _ _ _ _

/-- Of two relations with different fields either can be attached first. -/
theorem attach_comm {r' : Relation} (hne : r.field ≠ r'.field) (groups groups' : Groups) (records : List Value)
    (rows : List Row) :
    Agree SameRecords ((r.attach groups records rows).outcome >>= fun vs => (r'.attach groups' vs rows).outcome)
      ((r'.attach groups' records rows).outcome >>= fun vs => (r.attach groups vs rows).outcome) := by
  induction records generalizing rows with
  | nil => cases rows <;> exact .refl sameRecords_refl _
  | cons v records ih => cases rows with
    | nil => exact .error _ _
    | cons row rows =>
      have hswapped := (Value.assign_comm hne v (r.attached groups row) (r'.attached groups' row)).bind
        (S := SameRecords) fun hv => (ih rows).map fun hvs => .cons hv hvs
      have hhere := agree_attach_cons r r' groups groups' v records row rows
      have hthere := (agree_attach_cons r' r groups' groups v records row rows).symm Eq.symm
      exact (hhere.trans (fun _ _ _ h h' => h ▸ h') hswapped).trans (fun _ _ _ h h' => h' ▸ h) hthere

/-- What loading comes to, by what fetching comes to. -/
def loaded (fetched : Relation → Except Failure Groups) (rows : List Row) (records : List Value) (r : Relation) :
    Except Failure (List Value) :=
  fetched r >>= fun groups => (r.attach groups records rows).outcome

theorem agree_loaded (fetched : Relation → Except Failure Groups) (rows : List Row) (r : Relation)
    {records records' : List Value} (h : SameRecords records records') :
    Agree SameRecords (loaded fetched rows records r) (loaded fetched rows records' r) := by
  rw [loaded, loaded]
  exact (Agree.refl (fun _ => rfl) (fetched r)).bind fun hg => hg ▸ agree_attach r _ rows h

theorem loaded_comm {r' : Relation} (hne : r.field ≠ r'.field) (fetched : Relation → Except Failure Groups)
    (rows : List Row) (records : List Value) :
    Agree SameRecords (loaded fetched rows records r >>= (loaded fetched rows · r'))
      (loaded fetched rows records r' >>= (loaded fetched rows · r)) := by
  simp only [loaded]
  cases fetched r with
  | error e => cases fetched r' with
    | error e' => exact .error _ _
    | ok groups' =>
      rw [Outcome.error_bind, Outcome.ok_bind]
      cases (r'.attach groups' records rows).outcome <;> exact .error _ _
  | ok groups => cases fetched r' with
    | error e' =>
      rw [Outcome.error_bind, Outcome.ok_bind]
      cases (r.attach groups records rows).outcome <;> exact .error _ _
    | ok groups' => exact attach_comm hne groups groups' records rows

/-! ### Fetching -/

theorem outcome_exchange (c : Connector σ) (r : Relation) (keys : List Value) (s : σ) :
    ((exchange c r keys).run s).1 = r.batchStatement keys >>= fun statement =>
      ((c.run statement).run (c.log (r.batchLine keys) s)).1 >>= fun replies => replies.foldlM r.addToGroup [] := by
  rw [exchange]
  cases r.batchStatement keys with
  | error e => rfl
  | ok statement =>
    have hnote : (c.note (r.batchLine keys)).run s = (.ok (), c.log (r.batchLine keys) s) := rfl
    rw [Task.ofExcept_ok_bind, Task.run_bind_of_ok hnote, Task.run_bind, Outcome.ok_bind]
    cases (c.run statement).run (c.log (r.batchLine keys) s) with
    | mk outcome t => cases outcome <;> rfl

/-- What is fetched through such a connector depends on the rows alone. -/
theorem fetch_constant (hc : c.Constant) (r : Relation) (rows : List Row) (s t : σ) :
    ((r.fetch c rows).run s).1 = ((r.fetch c rows).run t).1 := by
  cases hk : r.collectKeys rows with
  | error e => rw [run_fetch_of_error hk, run_fetch_of_error hk]
  | ok keys =>
    by_cases hne : keys = []
    · subst hne
      rw [run_fetch_of_nil hk, run_fetch_of_nil hk]
    · rw [run_fetch_of_keys hk hne, run_fetch_of_keys hk hne, outcome_exchange, outcome_exchange]
      exact bind_congr fun statement => by rw [hc statement]

theorem outcome_load (c : Connector σ) (r : Relation) (records : List Value) (rows : List Row) (s : σ) :
    ((r.load c records rows).run s).1.outcome =
      ((r.fetch c rows).run s).1 >>= fun groups => (r.attach groups records rows).outcome := by
  cases h : (r.fetch c rows).run s with
  | mk outcome t => cases outcome with
    | error e => rw [run_load_of_error h]; rfl
    | ok groups => rw [run_load_of_ok h]; rfl

end Relation

namespace Query

variable {σ : Type} {c : Connector σ} {q : Query} {rows : List Row}

/-! ### Loading all relations -/

/-- Loading relations into records that are not cells of the rows. -/
theorem outcome_loadAll (hfresh : q.table.read.source = none) {fetched : Relation → Except Failure Groups}
    (hfetched : ∀ r s, ((Relation.fetch c r rows).run s).1 = fetched r) (rs : List Relation) (records : List Value)
    (s : σ) : ((loadAll c q rs ⟨records, rows⟩).run s).1 =
      (rs.foldlM (Relation.loaded fetched rows) records).map (⟨·, rows⟩) := by
  have hanswer : ∀ vs, q.answer rows vs = ⟨vs, rows⟩ := by
    intro vs
    rw [answer, Reader.putBack, hfresh]
  induction rs generalizing records s with
  | nil => rfl
  | cons r rs ih =>
    have hload := Relation.outcome_load c r records rows s
    rw [hfetched] at hload
    rw [List.foldlM_cons, Relation.loaded, ← hload]
    cases hx : (r.load c records rows).run s with
    | mk touched t =>
      obtain ⟨records', failure⟩ := touched
      cases failure with
      | none =>
        rw [run_loadAll_of_loaded hx, hanswer, ih]
        rfl
      | some e =>
        rw [run_loadAll_of_failed hx]
        rfl

/-- Answers with the same rows, and records with the same fields. -/
structure SameAnswers (a a' : Answer) : Prop where
  records : SameRecords a.records a'.records
  rows : a.rows = a'.rows

theorem agree_loadAll (hc : c.Constant) {q q' : Query} (hfresh : q.table.read.source = none)
    (hfresh' : q'.table.read.source = none) {rs rs' : List Relation} (hperm : rs.Perm rs')
    (hfields : (rs.map Relation.field).Nodup) (records : List Value) (rows : List Row) (s t : σ) :
    Agree SameAnswers ((loadAll c q rs ⟨records, rows⟩).run s).1 ((loadAll c q' rs' ⟨records, rows⟩).run t).1 := by
  have hfetched : ∀ r u, ((Relation.fetch c r rows).run u).1 = ((Relation.fetch c r rows).run s).1 :=
    fun r u => Relation.fetch_constant hc r rows u s
  rw [outcome_loadAll hfresh hfetched, outcome_loadAll hfresh' hfetched]
  have hpairwise : rs.Pairwise fun r r' => r.field ≠ r'.field := List.pairwise_map.1 hfields
  refine (Agree.foldlM_perm (fun r => Relation.agree_loaded _ rows r) sameRecords_refl sameRecords_trans Ne.symm
    (fun hne => Relation.loaded_comm hne _ rows) hperm hpairwise (sameRecords_refl records)).map fun h => ?_
  exact ⟨h, rfl⟩

/-! ### Queries -/

/-- Outcomes with the same answers, if there is one. -/
abbrev SameOutcomes : Except Failure Answer → Except Failure Answer → Prop := Agree SameAnswers

theorem outcome_finish (hfresh : q.table.read.source = none) (rs : List Relation) (rows : List Row) (s : σ) :
    ((finish c q rs rows).run s).1 = mapRows q.table.plan (q.joined.map Relation.joinedPlan) rows >>= fun records =>
      ((loadAll c q rs ⟨records, rows⟩).run s).1 := by
  rw [finish]
  cases mapRows q.table.plan (q.joined.map Relation.joinedPlan) rows with
  | error e => rfl
  | ok records =>
    rw [Task.ofExcept_ok_bind, Outcome.ok_bind, answer, Reader.putBack, hfresh]

/-- A query for the same with its batched relations in another order. -/
theorem agree_get (hc : c.Constant) {q q' : Query} (hfresh : q.table.read.source = none) (htable : q'.table = q.table)
    (hstatement : q'.statement = q.statement) (hjoined : q'.joined = q.joined) (hperm : q.batched.Perm q'.batched)
    (hfields : (q.batched.map Relation.field).Nodup) (s t : σ) :
    SameOutcomes ((q.get c).run s).1 ((q'.get c).run t).1 := by
  have hfresh' : q'.table.read.source = none := by rw [htable, hfresh]
  cases hs : q.statement with
  | error e =>
    rw [run_get_of_error hs, run_get_of_error (hstatement.trans hs)]
    exact .error _ _
  | ok main =>
    have hreply := hc main s t
    rw [run_get_of_ok hs, run_get_of_ok (hstatement.trans hs), Task.run_bind, Task.run_bind]
    cases hx : (c.run main).run s with
    | mk outcome u => cases hy : (c.run main).run t with
      | mk outcome' u' =>
        rw [hx, hy] at hreply
        cases hreply
        cases outcome with
        | error e => exact .error _ _
        | ok rows =>
          dsimp only
          rw [outcome_finish hfresh, outcome_finish hfresh', hjoined, htable]
          exact (Agree.refl (fun _ => rfl) _).bind fun hrecords =>
            hrecords ▸ agree_loadAll hc hfresh hfresh' hperm hfields _ rows u u'

/-! ### Requests in another order -/

/-- A query asked to load relations one after the other. -/
def withAll (q : Query) (loads : List (Relation × Bool)) : Except Failure Query :=
  loads.foldlM (fun q load => q.withRelation load.1 load.2) q

/-- The relations after others were set. -/
def place (relations loads : List (Relation × Bool)) : List (Relation × Bool) :=
  loads.foldl (fun relations load => setRelation load.1 load.2 relations) relations

/-- What is asked for can be loaded if it belongs to the table of the query. -/
theorem withAll_eq (q : Query) (loads : List (Relation × Bool)) :
    if ∀ load ∈ loads, load.1.source.name = q.table.name then
      q.withAll loads = .ok { q with
        relations := place q.relations loads
        built := if loads.isEmpty then q.built else none }
    else ∃ e, q.withAll loads = .error e := by
  induction loads generalizing q with
  | nil => simp [withAll, place]
  | cons load loads ih =>
    have hcons : q.withAll (load :: loads) = q.withRelation load.1 load.2 >>= (·.withAll loads) := rfl
    rw [hcons, withRelation]
    by_cases hname : load.1.source.name = q.table.name
    · rw [if_pos hname, Outcome.ok_bind]
      have hrest := ih { q with relations := setRelation load.1 load.2 q.relations, built := none }
      simp only [List.forall_mem_cons, hname, true_and]
      split at hrest
      · rename_i hall
        rw [if_pos hall, hrest]
        simp [place]
      · rename_i hall
        rwa [if_neg hall]
    · rw [if_neg hname, if_neg fun hall => hname (hall load List.mem_cons_self)]
      exact ⟨_, rfl⟩

/-- The field of a relation that is asked for. -/
abbrev fieldOf (load : Relation × Bool) : String := load.1.field

/-- The relations that are not among the fields of others. -/
def besides (relations loads : List (Relation × Bool)) : List (Relation × Bool) :=
  relations.filter fun e => fieldOf e ∉ loads.map fieldOf

theorem besides_cons (relations : List (Relation × Bool)) (load : Relation × Bool) (loads : List (Relation × Bool)) :
    besides relations (load :: loads) = besides (relations.filter fun e => fieldOf e ≠ fieldOf load) loads := by
  rw [besides, besides, List.filter_filter]
  refine List.filter_congr fun e _ => ?_
  rw [Bool.eq_iff_iff]
  simp [not_or, and_comm]

variable {relations loads loads' : List (Relation × Bool)} {load : Relation × Bool}

/-- A relation that heads a list without repetition is the only one of its field. -/
theorem filter_of_head {e : Relation × Bool} (hn : ((e :: relations).map fieldOf).Nodup)
    (hfield : fieldOf e = fieldOf load) :
    ((e :: relations).filter fun e => fieldOf e ≠ fieldOf load) = relations := by
  rw [List.filter_cons_of_neg (by simpa using hfield)]
  refine List.filter_eq_self.2 fun e' he' => decide_eq_true fun heq => ?_
  exact (List.nodup_cons.1 hn).1 (List.mem_map.2 ⟨e', he', heq.trans hfield.symm⟩)

/-- A relation that is set replaces that of its field. -/
theorem setRelation_perm (hn : (relations.map fieldOf).Nodup) (load : Relation × Bool) :
    (setRelation load.1 load.2 relations).Perm (load :: relations.filter fun e => fieldOf e ≠ fieldOf load) := by
  induction relations with
  | nil => exact .refl _
  | cons e relations ih =>
    rw [setRelation]
    by_cases hfield : e.1.field = load.1.field
    · rw [if_pos hfield, filter_of_head hn hfield]
    · rw [if_neg hfield, List.filter_cons_of_pos (by simpa using hfield)]
      exact ((ih (List.nodup_cons.1 hn).2).cons e).trans (.swap _ _ _)

/-- A relation that is not joined takes none of the joined ones' places but that of its field. -/
theorem filter_setRelation (hn : (relations.map fieldOf).Nodup) (hload : load.1.canJoin load.2 = false) :
    ((setRelation load.1 load.2 relations).filter fun e => e.1.canJoin e.2) =
      (relations.filter fun e => fieldOf e ≠ fieldOf load).filter fun e => e.1.canJoin e.2 := by
  induction relations with
  | nil => simp [setRelation, hload]
  | cons e relations ih =>
    rw [setRelation]
    by_cases hfield : e.1.field = load.1.field
    · rw [if_pos hfield, List.filter_cons_of_neg (by simp [hload]), filter_of_head hn hfield]
    · have hkeep : ((e :: relations).filter fun e => fieldOf e ≠ fieldOf load) =
          e :: relations.filter fun e => fieldOf e ≠ fieldOf load := List.filter_cons_of_pos (by simpa using hfield)
      rw [if_neg hfield, hkeep, List.filter_cons, List.filter_cons, ih (List.nodup_cons.1 hn).2]

theorem nodup_setRelation (hn : (relations.map fieldOf).Nodup) (load : Relation × Bool) :
    ((setRelation load.1 load.2 relations).map fieldOf).Nodup := by
  rw [((setRelation_perm hn load).map fieldOf).nodup_iff, List.map_cons, List.nodup_cons]
  refine ⟨fun hmem => ?_, hn.sublist (List.filter_sublist.map fieldOf)⟩
  obtain ⟨e, he, hfield⟩ := List.mem_map.1 hmem
  exact of_decide_eq_true (List.mem_filter.1 he).2 hfield

/-- What is set is there afterwards, and of the others those of other fields. -/
theorem place_perm (hn : (relations.map fieldOf).Nodup) (hloads : (loads.map fieldOf).Nodup) :
    (place relations loads).Perm (loads ++ besides relations loads) := by
  induction loads generalizing relations with
  | nil => simp [place, besides]
  | cons load loads ih =>
    obtain ⟨hload, hrest⟩ := List.nodup_cons.1 hloads
    have hset := setRelation_perm hn load
    have hkept : besides (load :: relations.filter fun e => fieldOf e ≠ fieldOf load) loads =
        load :: besides relations (load :: loads) := by
      rw [besides_cons, besides, List.filter_cons_of_pos (by simpa using hload), ← besides]
    refine (ih (nodup_setRelation hn load) hrest).trans ?_
    refine (((hset.filter _).append_left loads).trans ?_)
    rw [← besides, hkept]
    exact List.perm_middle

/-- Setting relations that are not joined keeps the joined ones of other fields, in order. -/
theorem filter_place (hn : (relations.map fieldOf).Nodup)
    (hbatched : ∀ load ∈ loads, load.1.canJoin load.2 = false) :
    ((place relations loads).filter fun e => e.1.canJoin e.2) =
      (besides relations loads).filter fun e => e.1.canJoin e.2 := by
  induction loads generalizing relations with
  | nil => simp [place, besides]
  | cons load loads ih =>
    obtain ⟨hload, hrest⟩ := List.forall_mem_cons.1 hbatched
    show (place (setRelation load.1 load.2 relations) loads).filter _ = _
    rw [ih (nodup_setRelation hn load) hrest, besides_cons, besides, besides, List.filter_comm,
      filter_setRelation hn hload, List.filter_comm]

theorem besides_of_perm (h : loads.Perm loads') (relations : List (Relation × Bool)) :
    besides relations loads = besides relations loads' :=
  List.filter_congr fun _ _ => decide_eq_decide.2 (not_congr (h.map fieldOf).mem_iff)

theorem nodup_place (hn : (relations.map fieldOf).Nodup) (loads : List (Relation × Bool)) :
    ((place relations loads).map fieldOf).Nodup := by
  induction loads generalizing relations with
  | nil => exact hn
  | cons load loads ih => exact ih (nodup_setRelation hn load)

/-- A query has one relation for each field. -/
theorem nodup_lastPerField (loads : List (Relation × Bool)) : ((Builder.lastPerField loads).map fieldOf).Nodup := by
  induction loads using List.reverseRecOn with
  | nil => exact .nil
  | append_singleton loads load ih =>
    rw [Builder.lastPerField_concat]
    exact nodup_setRelation ih load

/-- Relations that are not joined, asked for in two orders, make queries for the same. -/
theorem agree_withAll (hc : c.Constant) (hfresh : q.table.read.source = none) (hq : (q.relations.map fieldOf).Nodup)
    (hperm : loads.Perm loads') (hloads : (loads.map fieldOf).Nodup)
    (hbatched : ∀ load ∈ loads, load.1.canJoin load.2 = false) :
    Agree (fun q₁ q₂ => ∀ s t, SameOutcomes ((Query.get c q₁).run s).1 ((Query.get c q₂).run t).1) (q.withAll loads)
      (q.withAll loads') := by
  have hall := withAll_eq q loads
  have hall' := withAll_eq q loads'
  rw [if_congr (forall_congr' fun load => imp_congr_left hperm.mem_iff) rfl rfl] at hall
  split at hall'
  · rename_i hnames
    rw [if_pos hnames] at hall
    rw [hall, hall']
    have hempty : loads.isEmpty = loads'.isEmpty := hperm.isEmpty_eq
    have hbatched' : ∀ load ∈ loads', load.1.canJoin load.2 = false := fun load h => hbatched load (hperm.mem_iff.2 h)
    have hloads' : (loads'.map fieldOf).Nodup := (hperm.map fieldOf).nodup_iff.1 hloads
    have hplaced : (place q.relations loads).Perm (place q.relations loads') := by
      refine (place_perm hq hloads).trans (List.Perm.trans ?_ (place_perm hq hloads').symm)
      rw [besides_of_perm hperm]
      exact hperm.append_right _
    have hjoined : (place q.relations loads').filter (fun e => e.1.canJoin e.2) =
        (place q.relations loads).filter fun e => e.1.canJoin e.2 := by
      rw [filter_place hq hbatched', filter_place hq hbatched, besides_of_perm hperm]
    have hfields : ((((place q.relations loads).filter fun e => !e.1.canJoin e.2).map Prod.fst).map
        Relation.field).Nodup := by
      rw [List.map_map]
      exact (nodup_place hq loads).sublist (List.filter_sublist.map fieldOf)
    refine .ok fun s t => ?_
    refine agree_get hc ?_ ?_ ?_ ?_ ?_ ?_ s t
    · exact hfresh
    · rfl
    · rw [statement, statement, compile, compile, joined, joined, hjoined, hempty]
    · exact congrArg (List.map Prod.fst) hjoined
    · exact (hplaced.filter _).map _
    · exact hfields
  · rename_i hnames
    rw [if_neg hnames] at hall
    obtain ⟨e, he⟩ := hall
    obtain ⟨e', he'⟩ := hall'
    rw [he, he']
    exact .error e e'

/-- **The order of batched relations.** Of two queries for the same that have their batched relations in different
orders both fail, or both give the same rows and records with the same fields, if the fields of the relations are
different, the records are made anew, and what a statement is answered with depends on nothing else. Such queries are
made by asking for the relations in different orders. -/
theorem order_irrelevant (hc : c.Constant) (q : Query) (hfresh : q.table.read.source = none) :
    (∀ relations, { q with relations := relations }.joined = q.joined →
      q.batched.Perm { q with relations := relations }.batched → (q.batched.map Relation.field).Nodup →
      ∀ s t, SameOutcomes ((q.get c).run s).1 (({ q with relations := relations }.get c).run t).1) ∧
    ((q.relations.map fieldOf).Nodup → ∀ loads loads', loads.Perm loads' → (loads.map fieldOf).Nodup →
      (∀ load ∈ loads, load.1.canJoin load.2 = false) →
      Agree (fun q₁ q₂ => ∀ s t, SameOutcomes ((Query.get c q₁).run s).1 ((Query.get c q₂).run t).1) (q.withAll loads)
        (q.withAll loads')) ∧
    ∀ t requests, (Builder.Opening.query t).builder.after requests = .query q → (q.relations.map fieldOf).Nodup := by
  refine ⟨fun relations hjoined hperm hfields => agree_get hc hfresh rfl ?_ hjoined hperm hfields, ?_, ?_⟩
  · rw [statement, statement, compile, compile, hjoined]
  · exact fun hq loads loads' => agree_withAll hc hfresh hq
  · intro t requests h
    rw [relations_of_after h]
    exact nodup_lastPerField _

end Query

/-- The posts of users in the place of the column that leads to them. -/
def postsForId : Relation := { Relation.postsOfUsers with field := "id" }

/-- A connector that answers all statements with the same row: a user with a post. -/
def sevens : Connector Unit where
  run _ := fun s => (.ok [[("id", .integer 7), ("user", .integer 7), (relationKey, .integer 7)]], s)
  log _ s := s

/-- The posts are put in the place of the key of the user, before or after they are loaded by it under their own
name. -/
theorem order_irrelevant_posts :
    let q := Query.all Relation.postsOfUsers.source
    let loads := [(postsForId, false), (Relation.postsOfUsers, false)]
    sevens.Constant ∧ q.table.read.source = none ∧ (q.relations.map Query.fieldOf).Nodup ∧
    (loads.map Query.fieldOf).Nodup ∧ (∀ load ∈ loads, load.1.canJoin load.2 = false) ∧
    ∃ q₁ q₂ a a', q.withAll loads = .ok q₁ ∧ q.withAll loads.reverse = .ok q₂ ∧
      ((Query.get sevens q₁).run ()).1 = .ok a ∧ ((Query.get sevens q₂).run ()).1 = .ok a' ∧
      Query.SameAnswers a a' := by
  intro q loads
  have hc : sevens.Constant := fun _ _ _ => rfl
  have hq : (q.relations.map Query.fieldOf).Nodup := .nil
  have hloads : (loads.map Query.fieldOf).Nodup := by decide
  have hbatched : ∀ load ∈ loads, load.1.canJoin load.2 = false := by decide
  have hagree := (Query.order_irrelevant hc q rfl).2.1 hq loads loads.reverse (List.reverse_perm loads).symm hloads
    hbatched
  have hok : (q.withAll loads).toOption.map (fun q => ((q.get sevens).run ()).1.isOk) = some true := by decide +kernel
  refine ⟨hc, rfl, hq, hloads, hbatched, ?_⟩
  generalize q.withAll loads = first at hok hagree ⊢
  generalize q.withAll loads.reverse = second at hagree ⊢
  cases hagree with
  | error => cases hok
  | @ok q₁ q₂ h =>
    replace h := h () ()
    replace hok : ((q₁.get sevens).run ()).1.isOk = true := Option.some.inj hok
    generalize h₁ : ((q₁.get sevens).run ()).1 = outcome at h hok
    generalize h₂ : ((q₂.get sevens).run ()).1 = outcome' at h
    cases h with
    | ok hsame => exact ⟨q₁, q₂, _, _, rfl, rfl, h₁, h₂, hsame⟩
    | error => cases hok

end RecordSql
