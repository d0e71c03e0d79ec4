import Mathlib.Data.List.Induction
import RecordSql.Proofs.Result.Row
import RecordSql.Table.Builder

/-!
# Requests to a builder

What each request does to a query, an insertion or an update, and in `settled` what all of them together amount to: for
each clause what the last successful request has set, and for each field the last relation. The statement that a builder
keeps is left out of this.
-/

namespace RecordSql

/-! ### Requests -/

namespace Builder

/-- A request to a builder: a method with its arguments. -/
inductive Request
  | select (columns : Clause)
  | selectColumns (names : Option (List String))
  | join (clause : Clause)
  | filter (condition : Clause)
  | filterValue (column operator : String) (v : Value)
  | filterColumn (left operator right : String)
  | filterIn (column : String) (values : List Value)
  | filterKey (key : Value)
  | load (r : Relation) (later : Bool)
  | values (records : Value)
  | set (record : Value)
  | returning (columns : Clause)
  | returningColumns (names : Option (List String))
  | returningAll
  | build
  | run

/-- How a builder comes to be. -/
inductive Opening
  | query (t : Table)
  | insertion (t : Table) (columns : Option (List Value))
  | update (t : Table) (columns : Option (List Value))

/-- The builder before any request. -/
def Opening.builder : Opening → Builder
  | .query t => .query (.all t)
  | .insertion t columns => .insertion (.into t columns)
  | .update t columns => .update (.of t columns)

/-- The condition of a request that is for any table. -/
def Request.condition? : Request → Option (Except Failure Clause)
  | .filter condition => some (.ok condition)
  | .filterValue column operator v => some ((Condition.compare column operator v).map .ok)
  | .filterColumn left operator right => some (.ok (.ok (Condition.compareColumns left operator right)))
  | .filterIn column vs => some ((Condition.member column vs).map .ok)
  | _ => none

end Builder

open Builder

/-- The query after a request. Building and running keep the statement, whatever else comes of them. -/
def Query.respond (q : Query) (request : Request) : Except Failure Query :=
  match request with
  | .select columns => .ok (q.select columns)
  | .selectColumns names => q.selectColumns names
  | .join clause => .ok (q.join clause)
  | .filterKey key => q.filterKey key
  | .load r later => q.withRelation r later
  | .build | .run => .ok q.keep
  | _ => match request.condition? with
    | some condition => condition.map q.filter
    | none => .error .absentAttribute

/-- The insertion after a request. -/
def Insertion.respond (i : Insertion) : Request → Except Failure Insertion
  | .values records => i.values records
  | .returning columns => .ok (i.returning columns)
  | .returningColumns names => i.returningColumns names
  | .returningAll => .ok i.returningAll
  | .build | .run => .ok i.keep
  | _ => .error .absentAttribute

/-- The update after a request. -/
def Update.respond (u : Update) (request : Request) : Except Failure Update :=
  match request with
  | .set record => u.set record
  | .filterKey key => u.filterKey key
  | .returning columns => .ok (u.returning columns)
  | .returningColumns names => u.returningColumns names
  | .returningAll => .ok u.returningAll
  | .build | .run => .ok u.keep
  | _ => match request.condition? with
    | some condition => condition.map u.filter
    | none => .error .absentAttribute

namespace Builder

/-- The builder after a request, or why it was refused. -/
def respond : Builder → Request → Except Failure Builder
  | .query q, request => (q.respond request).map .query
  | .insertion i, request => (i.respond request).map .insertion
  | .update u, request => (u.respond request).map .update

/-- The builder that is left; a refused request leaves it as it was. -/
def next (b : Builder) (request : Request) : Builder := (b.respond request).toOption.getD b

/-- The builder after requests, one after the other. -/
def after (b : Builder) (requests : List Request) : Builder := requests.foldl next b

theorem after_concat (b : Builder) (requests : List Request) (request : Request) :
    b.after (requests ++ [request]) = (b.after requests).next request := by
  rw [after, List.foldl_append]
  rfl

/-- The statement of the clauses as they are. -/
def compile : Builder → Except Failure Statement
  | .query q => q.compile
  | .insertion i => i.compile
  | .update u => u.compile

/-- The builder without a kept statement. -/
def bare : Builder → Builder
  | .query q => .query { q with built := none }
  | .insertion i => .insertion { i with built := none }
  | .update u => .update { u with built := none }

end Builder

/-! ### What requests leave -/

namespace Builder

/-- What the last of the requests that set something has set. -/
def latest {α : Type} (f : Request → Option α) (requests : List Request) : Option α := (requests.filterMap f).getLast?

theorem latest_concat {α : Type} (f : Request → Option α) (requests : List Request) (request : Request) :
    latest f (requests ++ [request]) = (f request).or (latest f requests) := by
  rw [latest, List.filterMap_append, List.getLast?_append, latest]
  cases h : f request <;> simp [h]

namespace Request

def columns? : Request → Option Clause
  | .select columns => some columns
  | .selectColumns (some names) => some (.ok (columnList names))
  | _ => none

def joined? : Request → Option Clause
  | .join clause => some clause
  | _ => none

def filter? (t : Table) (request : Request) : Option Clause :=
  match request with
  | .filterKey key => (t.keyCondition key).toOption.map .ok
  | _ => request.condition?.bind Except.toOption

def returned? : Request → Option Clause
  | .returning columns => some columns
  | .returningColumns (some names) => some (.ok (columnList names))
  | .returningAll => some (.ok (.plain "*"))
  | _ => none

/-- A relation that is loaded with a table, and whether it is loaded later. -/
def relation? (t : Table) : Request → Option (Relation × Bool)
  | .load r later => if r.source.name = t.name then some (r, later) else none
  | _ => none

/-- What the values are in a new insertion. -/
def values? (start : Insertion) : Request → Option Insertion
  | .values records => (start.values records).toOption
  | _ => none

/-- What the assignments are in a new update. -/
def assigned? (start : Update) : Request → Option Update
  | .set record => (start.set record).toOption
  | _ => none

end Request

/-- The last relation of each field, in the order in which the fields first appear. -/
def lastPerField (loads : List (Relation × Bool)) : List (Relation × Bool) :=
  (loads.map (·.1.field)).eraseDups.filterMap fun field => (loads.filter (·.1.field = field)).getLast?

end Builder

/-- The query that requests amount to. -/
def Query.settled (t : Table) (requests : List Request) : Query where
  table := t
  clauses := ⟨latest Request.columns? requests, latest Request.joined? requests, latest (Request.filter? t) requests⟩
  relations := lastPerField (requests.filterMap (Request.relation? t))
  built := none

/-- The insertion that requests amount to. -/
def Insertion.settled (t : Table) (columns : Option (List Value)) (requests : List Request) : Insertion :=
  let start := Insertion.into t columns
  let stored := (latest (Request.values? start) requests).getD start
  ⟨t, start.columns, stored.written, ⟨stored.clauses.rows, latest Request.returned? requests⟩, none⟩

/-- The update that requests amount to. -/
def Update.settled (t : Table) (columns : Option (List Value)) (requests : List Request) : Update :=
  let start := Update.of t columns
  let stored := (latest (Request.assigned? start) requests).getD start
  ⟨t, columns,
    ⟨stored.clauses.assignments, latest (Request.filter? t) requests, latest Request.returned? requests⟩, none⟩

/-- The builder that requests amount to. -/
def Builder.Opening.settled : Opening → List Request → Builder
  | .query t, requests => .query (.settled t requests)
  | .insertion t columns, requests => .insertion (.settled t columns requests)
  | .update t columns, requests => .update (.settled t columns requests)

/-! ### Relations by field -/

/-- Setting a relation among those of distinct fields: in the place of its field, or at the end. -/
theorem Query.setRelation_filterMap (r : Relation) (later : Bool) {fields : List String}
    {g : String → Option (Relation × Bool)} (hg : ∀ f ∈ fields, ∃ e, g f = some e ∧ e.1.field = f)
    (hn : fields.Nodup) :
    setRelation r later (fields.filterMap g) =
      if r.field ∈ fields then fields.filterMap (fun f => if f = r.field then some (r, later) else g f)
      else fields.filterMap g ++ [(r, later)] := by
  -- fields are distinct, so behind the place of the field no other entry is replaced
  induction fields with
  | nil => rfl
  | cons f fields ih =>
    obtain ⟨⟨x, l⟩, hx, hfield⟩ := hg f (by simp)
    obtain ⟨hf, hn⟩ := List.nodup_cons.1 hn
    replace ih := ih (fun f' hf' => hg f' (by simp [hf'])) hn
    rw [List.filterMap_cons_some hx, setRelation]
    by_cases h : f = r.field
    · subst h
      have hrest : fields.filterMap (fun f => if f = r.field then some (r, later) else g f) = fields.filterMap g :=
        List.filterMap_congr fun f' hf' => if_neg (by rintro rfl; exact hf hf')
      simp [show x.field = r.field from hfield, hrest]
    · have hne : ¬ x.field = r.field := by rwa [show x.field = f from hfield]
      have hmem : r.field ∈ f :: fields ↔ r.field ∈ fields := by simp [Ne.symm h]
      simp only [hne, if_false, ih, hmem]
      split
      · simp [h, hx]
      · simp

namespace Builder

/-- A field among those of relations has a last relation. -/
theorem exists_last_of_field {loads : List (Relation × Bool)} {f : String} (h : f ∈ loads.map (·.1.field)) :
    ∃ e, (loads.filter (·.1.field = f)).getLast? = some e ∧ e.1.field = f := by
  obtain ⟨e, he, rfl⟩ := List.mem_map.1 h
  have hne : loads.filter (fun x => x.1.field = e.1.field) ≠ [] :=
    List.ne_nil_of_mem (List.mem_filter.2 ⟨he, by simp⟩)
  refine ⟨_, List.getLast?_eq_some_getLast hne, ?_⟩
  simpa using (List.mem_filter.1 (List.getLast_mem hne)).2

/-- One more relation is set among the last ones of their fields. -/
theorem lastPerField_concat (loads : List (Relation × Bool)) (r : Relation) (later : Bool) :
    lastPerField (loads ++ [(r, later)]) = Query.setRelation r later (lastPerField loads) := by
  have hlast : ∀ f, ((loads ++ [(r, later)]).filter (·.1.field = f)).getLast? =
      if f = r.field then some (r, later) else (loads.filter (·.1.field = f)).getLast? := by
    intro f
    rw [List.filter_append, List.getLast?_append]
    by_cases h : f = r.field
    · simp [h]
    · simp [h, Ne.symm h]
  rw [lastPerField, lastPerField, Query.setRelation_filterMap r later
    (fun f hf => exists_last_of_field (List.mem_eraseDups.1 hf)) (nodup_eraseDups _)]
  simp only [hlast, List.map_append, List.map_singleton, eraseDups_concat, List.mem_eraseDups]
  split
  · rfl
  · rename_i hnew
    have hold : (loads.map (·.1.field)).eraseDups.filterMap
        (fun f => if f = r.field then some (r, later) else (loads.filter (·.1.field = f)).getLast?) =
        (loads.map (·.1.field)).eraseDups.filterMap fun f => (loads.filter (·.1.field = f)).getLast? :=
      List.filterMap_congr fun f hf => if_neg (by rintro rfl; exact hnew (List.mem_eraseDups.1 hf))
    rw [List.filterMap_append, hold]
    simp

end Builder

/-! ### One request -/

/-- The query with the clauses that a request sets. -/
def Query.settle (q : Query) (r : Request) : Query where
  table := q.table
  clauses := ⟨r.columns?.or q.clauses.columns, r.joined?.or q.clauses.join, (r.filter? q.table).or q.clauses.filter⟩
  relations := (r.relation? q.table).elim q.relations fun e => setRelation e.1 e.2 q.relations
  built := none

/-- A new insertion into the same columns. -/
def Insertion.fresh (i : Insertion) : Insertion := ⟨i.table, i.columns, i.columns, ⟨[], none⟩, none⟩

/-- The insertion with the clauses that a request sets. -/
def Insertion.settle (i : Insertion) (r : Request) : Insertion :=
  let stored := r.values? i.fresh
  ⟨i.table, i.columns, stored.elim i.written written,
    ⟨stored.elim i.clauses.rows (·.clauses.rows), r.returned?.or i.clauses.returning⟩, none⟩

/-- The update with the clauses that a request sets. -/
def Update.settle (u : Update) (r : Request) : Update :=
  let stored := r.assigned? (.of u.table u.columns)
  ⟨u.table, u.columns,
    ⟨stored.elim u.clauses.assignments (·.clauses.assignments), (r.filter? u.table).or u.clauses.filter,
      r.returned?.or u.clauses.returning⟩, none⟩

section Respond

variable {q : Query} {u : Update} {r : Request}

/-- A condition that can be made is set, and one that cannot be changes nothing. -/
theorem Query.respond_filter (outcome : Except Failure Clause) (h : q.respond r = outcome.map q.filter)
    (hs : q.settle r = { q with clauses.filter := outcome.toOption.or q.clauses.filter, built := none }) :
    q.respond r = .ok (q.settle r) ∨
      (q.respond r = .ok q.keep ∨ ∃ e, q.respond r = .error e) ∧ q.settle r = { q with built := none } := by
  cases outcome with
  | ok condition => exact .inl (by rw [h, hs]; rfl)
  | error e => exact .inr ⟨.inr ⟨e, h⟩, hs⟩

theorem Update.respond_filter (outcome : Except Failure Clause) (h : u.respond r = outcome.map u.filter)
    (hs : u.settle r = { u with clauses.filter := outcome.toOption.or u.clauses.filter, built := none }) :
    u.respond r = .ok (u.settle r) ∨
      (u.respond r = .ok u.keep ∨ ∃ e, u.respond r = .error e) ∧ u.settle r = { u with built := none } := by
  cases outcome with
  | ok condition => exact .inl (by rw [h, hs]; rfl)
  | error e => exact .inr ⟨.inr ⟨e, h⟩, hs⟩

/-- A request sets its clauses; or it sets none, and the query is as it was but for the kept statement. -/
theorem Query.respond_cases (q : Query) (r : Request) : q.respond r = .ok (q.settle r) ∨
    (q.respond r = .ok q.keep ∨ ∃ e, q.respond r = .error e) ∧ q.settle r = { q with built := none } := by
  cases r with
  | select _ | join _ | filter _ | filterColumn _ _ _ => exact .inl rfl
  | selectColumns names =>
    cases names with
    | none => exact .inr ⟨.inr ⟨_, rfl⟩, rfl⟩
    | some names => exact .inl rfl
  | filterValue _ _ _ | filterIn _ _ => exact respond_filter _ rfl rfl
  | filterKey key =>
    refine respond_filter ((q.table.keyCondition key).map .ok) ?_ ?_
    · rw [respond, filterKey]
      cases q.table.keyCondition key <;> rfl
    · rw [settle, Request.filter?]
      cases q.table.keyCondition key <;> rfl
  | load r later =>
    rw [respond, withRelation, settle, Request.relation?]
    by_cases h : r.source.name = q.table.name
    · exact .inl (by rw [if_pos h, if_pos h]; rfl)
    · exact .inr ⟨.inr ⟨_, if_neg h⟩, by rw [if_neg h]; rfl⟩
  | build | run => exact .inr ⟨.inl rfl, rfl⟩
  | values _ | set _ | returning _ | returningColumns _ | returningAll => exact .inr ⟨.inr ⟨_, rfl⟩, rfl⟩

/-- Values are written as into a new insertion. -/
theorem Insertion.values_eq (i : Insertion) (records : Value) : i.values records =
    (i.fresh.values records).map fun stored =>
      ⟨i.table, i.columns, stored.written, ⟨stored.clauses.rows, i.clauses.returning⟩, none⟩ := by
  unfold values
  rw [Outcome.map_bind]
  refine bind_congr fun rows => ?_
  rw [Outcome.map_bind]
  rfl

theorem Insertion.respond_cases (i : Insertion) (r : Request) : i.respond r = .ok (i.settle r) ∨
    (i.respond r = .ok i.keep ∨ ∃ e, i.respond r = .error e) ∧ i.settle r = { i with built := none } := by
  cases r with
  | returning _ | returningAll => exact .inl rfl
  | returningColumns names =>
    cases names with
    | none => exact .inr ⟨.inr ⟨_, rfl⟩, rfl⟩
    | some names => exact .inl rfl
  | values records =>
    rw [respond, values_eq, settle, Request.values?]
    cases i.fresh.values records with
    | error e => exact .inr ⟨.inr ⟨e, rfl⟩, rfl⟩
    | ok stored => exact .inl rfl
  | build | run => exact .inr ⟨.inl rfl, rfl⟩
  | _ => exact .inr ⟨.inr ⟨_, rfl⟩, rfl⟩

/-- Assignments are those of a new update. -/
theorem Update.set_eq (u : Update) (record : Value) : u.set record =
    ((Update.of u.table u.columns).set record).map fun stored =>
      { u with clauses.assignments := stored.clauses.assignments, built := none } := by
  obtain ⟨t, columns, clauses, built⟩ := u
  unfold set
  rw [Outcome.map_bind]
  refine bind_congr fun row => ?_
  cases columns with
  | none => rfl
  | some columns =>
    show (restrict columns row >>= _) = Except.map _ (restrict columns row >>= _)
    cases restrict columns row <;> rfl

theorem Update.respond_cases (u : Update) (r : Request) : u.respond r = .ok (u.settle r) ∨
    (u.respond r = .ok u.keep ∨ ∃ e, u.respond r = .error e) ∧ u.settle r = { u with built := none } := by
  cases r with
  | returning _ | returningAll | filter _ | filterColumn _ _ _ => exact .inl rfl
  | returningColumns names =>
    cases names with
    | none => exact .inr ⟨.inr ⟨_, rfl⟩, rfl⟩
    | some names => exact .inl rfl
  | filterValue _ _ _ | filterIn _ _ => exact respond_filter _ rfl rfl
  | filterKey key =>
    refine respond_filter ((u.table.keyCondition key).map .ok) ?_ ?_
    · rw [respond, filterKey]
      cases u.table.keyCondition key <;> rfl
    · rw [settle, Request.filter?]
      cases u.table.keyCondition key <;> rfl
  | set record =>
    rw [respond, set_eq, settle, Request.assigned?]
    cases (Update.of u.table u.columns).set record with
    | error e => exact .inr ⟨.inr ⟨e, rfl⟩, rfl⟩
    | ok stored => exact .inl rfl
  | build | run => exact .inr ⟨.inl rfl, rfl⟩
  | _ => exact .inr ⟨.inr ⟨_, rfl⟩, rfl⟩

end Respond

theorem Query.settle_settled (t : Table) (requests : List Request) (r : Request) :
    (settled t requests).settle r = settled t (requests ++ [r]) := by
  have hrelations : (r.relation? t).elim (lastPerField (requests.filterMap (Request.relation? t)))
      (fun e => setRelation e.1 e.2 (lastPerField (requests.filterMap (Request.relation? t)))) =
        lastPerField ((requests ++ [r]).filterMap (Request.relation? t)) := by
    rw [List.filterMap_append]
    cases h : r.relation? t with
    | none => simp [h]
    | some e =>
      obtain ⟨relation, later⟩ := e
      simp [h, lastPerField_concat]
  simp only [settle, settled, latest_concat, hrelations]

theorem Insertion.settle_settled (t : Table) (columns : Option (List Value)) (requests : List Request) (r : Request) :
    (settled t columns requests).settle r = settled t columns (requests ++ [r]) := by
  have hfresh : (settled t columns requests).fresh = .into t columns := rfl
  rw [settle, hfresh]
  cases h : r.values? (.into t columns) <;> simp [settled, latest_concat, h]

theorem Update.settle_settled (t : Table) (columns : Option (List Value)) (requests : List Request) (r : Request) :
    (settled t columns requests).settle r = settled t columns (requests ++ [r]) := by
  have hnew : Update.of (settled t columns requests).table (settled t columns requests).columns = .of t columns := rfl
  rw [settle, hnew]
  cases h : r.assigned? (.of t columns) <;> simp [settled, latest_concat, h]

namespace Builder

/-- The builder with the clauses that a request sets. -/
def settle : Builder → Request → Builder
  | .query q, r => .query (q.settle r)
  | .insertion i, r => .insertion (i.settle r)
  | .update u, r => .update (u.settle r)

variable {b : Builder}

theorem respond_cases (b : Builder) (r : Request) : b.respond r = .ok (b.settle r) ∨
    (b.respond r = .ok b.keep ∨ ∃ e, b.respond r = .error e) ∧ b.settle r = b.bare := by
  cases b with
  | query q =>
    rcases q.respond_cases r with h | ⟨h | ⟨e, h⟩, hs⟩
    · exact .inl (by rw [respond, h]; rfl)
    · exact .inr ⟨.inl (by rw [respond, h]; rfl), congrArg Builder.query hs⟩
    · exact .inr ⟨.inr ⟨e, by rw [respond, h]; rfl⟩, congrArg Builder.query hs⟩
  | insertion i =>
    rcases i.respond_cases r with h | ⟨h | ⟨e, h⟩, hs⟩
    · exact .inl (by rw [respond, h]; rfl)
    · exact .inr ⟨.inl (by rw [respond, h]; rfl), congrArg Builder.insertion hs⟩
    · exact .inr ⟨.inr ⟨e, by rw [respond, h]; rfl⟩, congrArg Builder.insertion hs⟩
  | update u =>
    rcases u.respond_cases r with h | ⟨h | ⟨e, h⟩, hs⟩
    · exact .inl (by rw [respond, h]; rfl)
    · exact .inr ⟨.inl (by rw [respond, h]; rfl), congrArg Builder.update hs⟩
    · exact .inr ⟨.inr ⟨e, by rw [respond, h]; rfl⟩, congrArg Builder.update hs⟩

theorem next_of_ok {b' : Builder} {r : Request} (h : b.respond r = .ok b') : b.next r = b' := by
  rw [next, h]
  rfl

theorem next_of_error {e : Failure} {r : Request} (h : b.respond r = .error e) : b.next r = b := by
  rw [next, h]
  rfl

end Builder

end RecordSql
