import RecordSql.Proofs.Relation.Load
import RecordSql.Table.Store

/-!
# Where construction can fail

A construction failure says that a statement could not be built. Reading rows, grouping them, putting records into
fields and writing those that are columns never fails so, if connector and converters have no construction failures of
their own. Loading a relation does, just when the keys of its parents cannot be bound.
-/

namespace RecordSql

/-! ### Outcomes without a construction failure -/

namespace Outcome

variable {α β : Type}

/-- Whatever is wrong with an outcome, it is not that something could not be constructed. -/
def Constructed (x : Except Failure α) : Prop := ∀ e, x = .error e → e.isIn .construction = false

variable {x : Except Failure α}

theorem constructed_ok (a : α) : Constructed (.ok a : Except Failure α) := fun _ h => nomatch h

theorem constructed_error {e : Failure} : Constructed (.error e : Except Failure α) ↔ e.isIn .construction = false :=
  ⟨fun h => h e rfl, fun h _ he => Except.error.inj he ▸ h⟩

theorem Constructed.bind (hx : Constructed x) {f : α → Except Failure β} (hf : ∀ a, Constructed (f a)) :
    Constructed (x >>= f) := by
  cases x with
  | error e => exact constructed_error.2 (constructed_error.1 hx)
  | ok a => exact hf a

theorem Constructed.map (hx : Constructed x) (f : α → β) : Constructed (x.map f) := by
  cases x with
  | error e => exact constructed_error.2 (constructed_error.1 hx)
  | ok a => exact constructed_ok (f a)

theorem constructed_mapM {f : α → Except Failure β} (hf : ∀ a, Constructed (f a)) (l : List α) :
    Constructed (l.mapM f) := by
  intro e he
  obtain ⟨a, -, ha⟩ := of_mapM_eq_error he
  exact hf a e ha

theorem constructed_foldlM {f : β → α → Except Failure β} {l : List α} (hf : ∀ b, ∀ a ∈ l, Constructed (f b a))
    (b : β) : Constructed (l.foldlM f b) := by
  induction l generalizing b with
  | nil => exact constructed_ok b
  | cons a l ih =>
    rw [List.foldlM_cons]
    exact (hf b a (by simp)).bind fun b' => ih (fun b a ha => hf b a (by simp [ha])) b'

end Outcome

open Outcome

namespace Value

mutual

theorem constructed_checkKey : ∀ v : Value, Constructed v.checkKey
  | .list _ | .set _ | .dict _ _ | .bytes true _ => constructed_error.2 rfl
  | .tuple items => constructed_checkKeys items
  | .param _ v => constructed_checkKey v
  | .record _ cls own inherited => by
    rw [checkKey]
    split
    · exact constructed_ok _
    · exact constructed_ok _
    · exact constructed_ok _
    · exact constructed_error.2 rfl
    · split
      · exact constructed_error.2 rfl
      · split
        · exact (constructed_checkKeyFields cls own).bind fun _ => constructed_checkKeyFields cls inherited
        · exact constructed_error.2 rfl
  | .null | .truth _ | .integer _ | .real _ | .text _ | .bytes false _ | .stream _ _ | .symbol _ _ _ _ | .default =>
    constructed_ok ()

theorem constructed_checkKeys : ∀ vs : List Value, Constructed (checkKeys vs)
  | [] => constructed_ok ()
  | v :: vs => (constructed_checkKey v).bind fun _ => constructed_checkKeys vs

theorem constructed_checkKeyFields (cls : RecordClass) : ∀ fields : List (String × Value),
    Constructed (checkKeyFields cls fields)
  | [] => constructed_ok ()
  | (k, v) :: rest => by
    rw [checkKeyFields]
    split
    · exact (constructed_checkKey v).bind fun _ => constructed_checkKeyFields cls rest
    · exact constructed_checkKeyFields cls rest

end

theorem constructed_declaredOf {outcomes : List (String × Except Failure Value)} (h : ∀ e ∈ outcomes, Constructed e.2)
    (fields : List String) : Constructed (declaredOf fields outcomes) := by
  intro e he
  obtain ⟨outcome, hmem, houtcome⟩ := of_mapM_eq_error he
  exact h outcome (List.mem_filter.1 hmem).1 e (map_eq_error.1 houtcome)

theorem constructed_completeOf {outcomes : List (String × Except Failure Value)} (h : ∀ e ∈ outcomes, Constructed e.2)
    (fields : List String) : Constructed (completeOf fields outcomes) := by
  intro e he
  obtain ⟨f, -, hf⟩ := of_mapM_eq_error he
  split at hf
  · rename_i outcome hlookup
    obtain ⟨front, back, hsplit, -⟩ := List.lookup_eq_some_iff.1 hlookup
    exact h (f, outcome) (by simp [hsplit]) e (map_eq_error.1 hf)
  · exact constructed_error.2 rfl e hf

mutual

theorem constructed_plain (v : Value) : Constructed v.plain := by
  cases v with
  | list vs => exact (constructed_plainAll vs).map _
  | tuple vs => exact (constructed_plainAll vs).map _
  | set vs => exact (constructed_plainAll vs).bind fun ws => (constructed_checkKeys ws).bind fun _ => constructed_ok _
  | dict id entries => exact (constructed_plainEntries entries).map _
  | param kind v => exact (constructed_plain v).map _
  | record id cls own inherited =>
    have hown := constructed_plainFields own
    have hinherited := constructed_plainFields inherited
    rw [plain]
    split
    · exact (constructed_declaredOf hown _).map _
    · exact (constructed_completeOf (List.forall_mem_append.2 ⟨hown, hinherited⟩) _).map _
    · exact constructed_ok _
  | stream => exact constructed_ok _
  | _ => exact constructed_ok _

theorem constructed_plainAll (vs : List Value) : Constructed (plainAll vs) := by
  cases vs with
  | nil => exact constructed_ok _
  | cons v vs => exact (constructed_plain v).bind fun w => (constructed_plainAll vs).bind fun _ => constructed_ok _

theorem constructed_plainEntries (entries : List (Value × Value)) : Constructed (plainEntries entries) := by
  cases entries with
  | nil => exact constructed_ok _
  | cons e entries =>
    obtain ⟨k, v⟩ := e
    exact (constructed_plain k).bind fun l => (constructed_plain v).bind fun w => (constructed_checkKey l).bind fun _ =>
      (constructed_plainEntries entries).bind fun _ => constructed_ok _

theorem constructed_plainFields (row : Row) : ∀ e ∈ plainFields row, Constructed e.2 := by
  cases row with
  | nil => exact List.forall_mem_nil _
  | cons e row =>
    obtain ⟨k, v⟩ := e
    exact List.forall_mem_cons.2 ⟨constructed_plain v, constructed_plainFields row⟩

end

theorem constructed_assign (v : Value) (field : String) (x : Value) : Constructed (v.assign field x) := by
  unfold assign
  split
  · exact constructed_ok _
  · exact constructed_ok _
  · split
    · exact constructed_error.2 rfl
    · exact constructed_ok _
  · split <;> exact constructed_ok _
  · exact constructed_ok _
  · exact constructed_error.2 rfl

end Value

/-- Writing the attributes of a record that are columns does not fail for construction. -/
theorem Writer.constructed_columns (names : List String) (v : Value) : Constructed (Writer.columns names v) := by
  have hattributes : Constructed (Writer.attributes v) := by
    unfold Writer.attributes
    split
    all_goals first | exact constructed_ok _ | exact constructed_error.2 rfl
  refine Constructed.map ?_ _
  unfold Writer.fieldsOf
  split
  · split
    · exact Value.constructed_declaredOf (Value.constructed_plainFields _) _
    · refine constructed_mapM (fun f => ?_) _
      split
      · exact constructed_ok _
      · exact constructed_error.2 rfl
    · exact hattributes
  · exact hattributes

/-- Values that cannot be bound are a failure of construction. -/
theorem Param.isIn_of_ofValues_eq_error {vs : List Value} {e : Failure} (h : ofValues vs = .error e) :
    e.isIn .construction = true := by
  obtain ⟨v, -, hv⟩ := of_mapM_eq_error h
  unfold ofValue at hv
  split at hv <;> (try split at hv) <;> cases hv <;> rfl

/-! ### Connectors and converters -/

/-- Whatever goes wrong in a task, it is not that something could not be constructed. -/
def Task.Constructed {σ α : Type} (x : Task σ α) : Prop := ∀ s, Outcome.Constructed (x.run s).1

namespace Task.Constructed

variable {σ α β : Type}

theorem ofExcept {x : Except Failure α} (h : Outcome.Constructed x) : Task.Constructed (σ := σ) (Task.ofExcept x) :=
  fun _ => h

theorem note (c : Connector σ) (line : LogLine) : Task.Constructed (c.note line) := fun _ => constructed_ok ()

theorem bind {x : Task σ α} (hx : Task.Constructed x) {f : α → Task σ β} (hf : ∀ a, Task.Constructed (f a)) :
    Task.Constructed (x >>= f) := by
  intro s
  cases h : x.run s with
  | mk outcome t =>
    have hs := hx s
    rw [h] at hs
    cases outcome with
    | error e =>
      rw [run_bind_of_error h]
      exact constructed_error.2 (constructed_error.1 hs)
    | ok a =>
      rw [run_bind_of_ok h]
      exact hf a t

end Task.Constructed

/-- The connector has no construction failures of its own. -/
def Connector.Sends {σ : Type} (c : Connector σ) : Prop := ∀ statement, Task.Constructed (c.run statement)

/-- The converters of a table have no construction failures of their own. -/
structure Table.Converts (t : Table) : Prop where
  read (row : Row) : Constructed (t.read.run row)
  write (write : Writer) (v : Value) : t.write = some write → Constructed (write v)

section Converters

variable {t : Table} {r : Relation}

theorem Table.Converts.plan (h : t.Converts) (row : Row) : Constructed (t.plan.run row) := by
  intro e he
  have hkeep : ∀ {x : Except Failure Value} {e : Failure}, Constructed x → x.mapError t.plan.refusal = .error e →
      e.isIn .construction = false := by
    intro x e hx he
    cases x with
    | ok v => cases he
    | error e' =>
      cases he
      have he' := constructed_error.1 hx
      unfold Plan.refusal
      split
      · exact he'
      · split
        · rfl
        · split
          · rfl
          · exact he'
  exact hkeep (h.read _) he

theorem constructed_joinedPlan (h : r.target.Converts) (row : Row) : Constructed (r.joinedPlan.run row) := by
  unfold JoinedPlan.run
  dsimp only
  split
  · exact constructed_ok _
  · exact h.plan _

theorem constructed_mapRows (h : t.Converts) {rs : List Relation} (hr : ∀ r ∈ rs, r.target.Converts)
    (rows : List Row) : Constructed (mapRows t.plan (rs.map Relation.joinedPlan) rows) := by
  refine constructed_mapM (fun row => ?_) rows
  refine (h.plan _).bind fun record => constructed_foldlM (fun v j hj => ?_) record
  obtain ⟨r, hmem, rfl⟩ := List.mem_map.1 hj
  exact (constructed_joinedPlan (hr r hmem) row).bind fun x => v.constructed_assign _ x

end Converters

/-! ### Relations -/

namespace Relation

variable {σ : Type} {c : Connector σ} {r : Relation} {s t : σ} {rows replies : List Row} {records : List Value}
  {keys : List Value} {e : Failure}

theorem constructed_collectKeys (r : Relation) (rows : List Row) : Constructed (r.collectKeys rows) := by
  refine constructed_foldlM (fun seen row _ => ?_) []
  dsimp only
  split
  · exact constructed_ok _
  · exact (Value.constructed_checkKey _).map _

theorem constructed_addToGroup (h : r.target.Converts) (replies : List Row) (groups : Groups) :
    Constructed (replies.foldlM r.addToGroup groups) := by
  refine constructed_foldlM (fun groups reply _ => ?_) groups
  unfold addToGroup
  cases reply.get? relationKey with
  | none => exact constructed_error.2 rfl
  | some key =>
    exact (Value.constructed_checkKey key).bind fun _ => (h.plan _).bind fun _ => constructed_ok _

/-- Keys have no statement just when they cannot be bound. -/
theorem batchStatement_eq_error (hne : keys ≠ []) :
    r.batchStatement keys = .error e ↔ Param.ofValues keys = .error e := by
  cases h : Param.ofValues keys with
  | error e' =>
    have hb : r.batchStatement keys = .error e' := by
      rw [batchStatement, Condition.member, h]
      rfl
    rw [hb, Except.error.injEq, Except.error.injEq]
  | ok ps =>
    obtain ⟨statement, hs, -⟩ : ∃ statement, r.batchStatement keys = .ok statement ∧ statement.params = ps :=
      batchStatement_of_supported hne h
    rw [hs]
    simp

/-- Sending for keys fails for construction just when they cannot be bound. -/
theorem exchange_construction_iff (hc : c.Sends) (hr : r.target.Converts) (hne : keys ≠ []) :
    (exchange c r keys).run s = (.error e, t) ∧ e.isIn .construction = true ↔
      t = s ∧ Param.ofValues keys = .error e := by
  rw [exchange, ← batchStatement_eq_error hne]
  cases hb : r.batchStatement keys with
  | error e' =>
    have he' := Param.isIn_of_ofValues_eq_error ((batchStatement_eq_error hne).1 hb)
    rw [Task.ofExcept_error_bind, Task.run_ofExcept]
    constructor
    · rintro ⟨⟨⟩, -⟩
      exact ⟨rfl, rfl⟩
    · rintro ⟨rfl, ⟨⟩⟩
      exact ⟨rfl, he'⟩
  | ok statement =>
    have hrest : Task.Constructed (c.note (r.batchLine keys) >>= fun _ => c.run statement >>= fun replies =>
        Task.ofExcept (replies.foldlM r.addToGroup [])) :=
      .bind (.note c _) fun _ => .bind (hc statement) fun replies => .ofExcept (constructed_addToGroup hr replies [])
    rw [Task.ofExcept_ok_bind]
    refine iff_of_false ?_ (by rintro ⟨-, ⟨⟩⟩)
    rintro ⟨h, he⟩
    rw [hrest s e (congrArg Prod.fst h)] at he
    cases he

/-- Fetching fails for construction just when the keys of the rows cannot be bound. -/
theorem fetch_construction_iff (hc : c.Sends) (hr : r.target.Converts) :
    (r.fetch c rows).run s = (.error e, t) ∧ e.isIn .construction = true ↔
      t = s ∧ ∃ keys, r.collectKeys rows = .ok keys ∧ Param.ofValues keys = .error e := by
  cases hk : r.collectKeys rows with
  | error e' =>
    rw [run_fetch_of_error hk]
    refine iff_of_false ?_ (by rintro ⟨-, _, ⟨⟩, -⟩)
    rintro ⟨⟨⟩, he⟩
    rw [r.constructed_collectKeys rows e hk] at he
    cases he
  | ok keys =>
    by_cases hne : keys = []
    · subst hne
      rw [run_fetch_of_nil hk]
      exact iff_of_false (by rintro ⟨⟨⟩, -⟩) (by rintro ⟨-, _, ⟨⟩, ⟨⟩⟩)
    · rw [run_fetch_of_keys hk hne, exchange_construction_iff hc hr hne]
      simp

/-- Attaching does not fail for construction. -/
theorem constructed_attach {groups : Groups} {records' : List Value}
    (h : r.attach groups records rows = ⟨records', some e⟩) : e.isIn .construction = false := by
  induction records generalizing rows records' with
  | nil =>
    cases rows with
    | nil => cases h
    | cons row rows =>
      cases h
      rfl
  | cons record records ih =>
    cases rows with
    | nil =>
      cases h
      rfl
    | cons row rows =>
      rw [attach] at h
      cases ha : record.assign r.field (r.attached groups row) with
      | error e' =>
        rw [ha] at h
        cases h
        exact record.constructed_assign _ _ e ha
      | ok record' =>
        rw [ha] at h
        cases hrest : r.attach groups records rows with
        | mk rest failure =>
          rw [hrest] at h
          cases h
          exact ih hrest

/-- Loading fails for construction just when the keys of the rows cannot be bound. Then it has sent nothing. -/
theorem load_construction_iff (hc : c.Sends) (hr : r.target.Converts) (records : List Value) :
    (∃ records', (r.load c records rows).run s = (⟨records', some e⟩, t)) ∧ e.isIn .construction = true ↔
      t = s ∧ ∃ keys, r.collectKeys rows = .ok keys ∧ Param.ofValues keys = .error e := by
  rw [← fetch_construction_iff hc hr]
  refine and_congr_left fun he => ?_
  cases hf : (r.fetch c rows).run s with
  | mk outcome u =>
    cases outcome with
    | error e' =>
      rw [run_load_of_error hf]
      constructor
      · rintro ⟨_, ⟨⟩⟩
        rfl
      · rintro ⟨⟩
        exact ⟨_, rfl⟩
    | ok groups =>
      rw [run_load_of_ok hf]
      constructor
      · rintro ⟨records', h⟩
        rw [constructed_attach (congrArg Prod.fst h)] at he
        cases he
      · rintro ⟨⟩

end Relation

end RecordSql
