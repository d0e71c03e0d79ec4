import RecordSql.Proofs.Outcome
import RecordSql.Relation.Basic

/-!
# Complete declarations

What a declaration of a relation has to give, and what is made of it. The two tables have the same roles for all kinds
of relations: one side has the foreign key and the other the model key, and only which is which depends on the kind.

* `keys_eq_ok`: the keys of all kinds of relations, in terms of the two sides.
* `complete_eq_error_iff`: a declaration is refused exactly if it is at fault.
* `completionOf_complete`: what else becomes of it.
-/

namespace RecordSql

namespace Declaration

variable {d : Declaration} {r : Relation} {key : Option String} {t : Table} {column role kind : String}

/-! ### Sides -/

/-- The table whose column the foreign key is. -/
def foreignSide (d : Declaration) : Table :=
  match d.route, d.reach with
  | .through, _ | .direct, .one => d.source
  | _, _ => d.target

/-- The table whose column the model key is. -/
def modelSide (d : Declaration) : Table :=
  match d.route, d.reach with
  | .through, _ | .direct, .one => d.target
  | _, _ => d.source

/-- Whether the foreign key has to be given. -/
def DemandsForeignKey (d : Declaration) : Prop :=
  match d.route, d.reach with
  | .through, _ | .reverse, .one => False
  | _, _ => True

/-- The key that is used where a key may be left out: the given one, or the only key column of its side. -/
def resolved (key : Option String) (t : Table) : Option String :=
  match given key, t.key with
  | some column, _ => some column
  | none, [column] => some column
  | none, _ => none

/-- All parts of the pivot are there. -/
def HasPivot (d : Declaration) : Prop :=
  (given d.pivot.table).isSome ∧ (given d.pivot.sourceKey).isSome ∧ (given d.pivot.targetKey).isSome

/-! ### Single checks -/

theorem keyOr_eq_ok : d.keyOr key t role = .ok column ↔ resolved key t = some column := by
  rw [keyOr, resolved, primaryKey]
  cases given key with
  | some given => simp
  | none =>
    cases t.key with
    | nil => simp [refuse]
    | cons first rest =>
      cases rest with
      | nil => simp
      | cons second rest => simp [refuse]

theorem demand_eq_ok : d.demand key kind = .ok column ↔ given key = some column := by
  rw [demand]
  cases given key <;> simp [refuse]

theorem demandPivot_eq_ok {u : Unit} : d.demandPivot = .ok u ↔ d.HasPivot := by
  have hpart : ∀ name part, (if (given part).isNone then d.refuse (name ++ " is required for THROUGH") else .ok ()) =
      (.ok () : Except Failure Unit) ↔ (given part).isSome := by
    intro name part
    cases given part <;> simp [refuse]
  rw [demandPivot, Outcome.forM_eq_ok, HasPivot]
  simp only [List.forall_mem_cons, hpart]
  simp

theorem checkColumn_eq_ok {u : Unit} : d.checkColumn t column role = .ok u ↔ column ∈ t.columns := by
  rw [checkColumn]
  by_cases h : column ∈ t.columns <;> simp [h, refuse]

/-! ### Keys -/

/-- Two keys of which each is declared on its side. -/
theorem checked_eq_ok {x y : Except Failure String} {s t : Table} {first second a b : String} :
    (do
      let k ← x
      let l ← y
      d.checkColumn s k first
      d.checkColumn t l second
      return (k, l)) = .ok (a, b) ↔ x = .ok a ∧ y = .ok b ∧ a ∈ s.columns ∧ b ∈ t.columns := by
  simp only [Outcome.bind_eq_ok, Outcome.pure_eq, Except.ok.injEq, Prod.mk.injEq, checkColumn_eq_ok]
  constructor
  · rintro ⟨_, hx, _, hy, _, hs, _, ht, rfl, rfl⟩
    exact ⟨hx, hy, hs, ht⟩
  · rintro ⟨hx, hy, hs, ht⟩
    exact ⟨a, hx, b, hy, (), hs, (), ht, rfl, rfl⟩

/-- The keys of a relation of any kind: each is resolved on its side and declared there. -/
theorem keys_eq_ok {foreignKey modelKey : String} : d.keys = .ok (foreignKey, modelKey) ↔
    (d.route = .through → d.HasPivot) ∧ (d.DemandsForeignKey → (given d.foreignKey).isSome) ∧
      resolved d.foreignKey d.foreignSide = some foreignKey ∧ resolved d.modelKey d.modelSide = some modelKey ∧
      foreignKey ∈ d.foreignSide.columns ∧ modelKey ∈ d.modelSide.columns := by
  have hdemand : ∀ t, given d.foreignKey = some foreignKey ↔
      (given d.foreignKey).isSome ∧ resolved d.foreignKey t = some foreignKey := by
    intro t
    rw [resolved]
    cases given d.foreignKey <;> simp
  rw [keys, foreignSide, modelSide, DemandsForeignKey]
  cases hroute : d.route with
  | through =>
    simp only [Outcome.bind_eq_ok (x := d.demandPivot)]
    simp only [exists_const, checked_eq_ok, demandPivot_eq_ok, keyOr_eq_ok, false_implies, true_and, forall_const]
  | direct =>
    cases hreach : d.reach with
    | one =>
      simp only [checked_eq_ok, keyOr_eq_ok, demand_eq_ok, hdemand d.source, reduceCtorEq, false_implies, true_and,
        forall_const, and_assoc]
    | many =>
      simp only [checked_eq_ok, keyOr_eq_ok, demand_eq_ok, hdemand d.target, reduceCtorEq, false_implies, true_and,
        forall_const, and_assoc]
  | reverse =>
    cases hreach : d.reach with
    | one => simp only [checked_eq_ok, keyOr_eq_ok, reduceCtorEq, false_implies, true_and]
    | many =>
      simp only [checked_eq_ok, keyOr_eq_ok, demand_eq_ok, hdemand d.target, reduceCtorEq, false_implies, true_and,
        forall_const, and_assoc]

/-- A declaration with a field name and two keys is that of a relation. -/
theorem complete_eq_ok : d.complete = .ok r ↔ d.field ≠ "" ∧ ∃ foreignKey modelKey,
    d.keys = .ok (foreignKey, modelKey) ∧
      r = ⟨d.field, d.reach, d.route, d.source, d.target, foreignKey, modelKey, d.pivot⟩ := by
  rw [complete]
  by_cases hf : d.field = ""
  · simp [hf, refuse]
  · simp only [hf, if_false, ne_eq, not_false_eq_true, true_and]
    cases d.keys with
    | error e => simp
    | ok keys =>
      constructor
      · rintro ⟨⟩
        exact ⟨keys.1, keys.2, rfl, rfl⟩
      · rintro ⟨_, _, hk, rfl⟩
        cases hk
        rfl

/-! ### Refusals -/

/-- Whatever goes wrong is said of the field of the declaration. -/
def Refuses {α : Type} (d : Declaration) (x : Except Failure α) : Prop :=
  ∀ e, x = .error e → ∃ detail, e = .relationDefinition d.field detail

section Refuses

variable {α β : Type}

theorem refuses_ok (a : α) : d.Refuses (.ok a : Except Failure α) := by
  intro e h
  cases h

theorem refuses_refuse (detail : String) : d.Refuses (d.refuse detail : Except Failure α) := by
  rintro e ⟨⟩
  exact ⟨detail, rfl⟩

theorem Refuses.bind {x : Except Failure α} {f : α → Except Failure β} (hx : d.Refuses x)
    (hf : ∀ a, d.Refuses (f a)) : d.Refuses (x >>= f) := by
  cases x with
  | error e =>
    rintro _ ⟨⟩
    exact hx e rfl
  | ok a => exact hf a

theorem refuses_keyOr (key : Option String) (t : Table) (role : String) : d.Refuses (d.keyOr key t role) := by
  rw [keyOr]
  split
  · exact refuses_ok _
  · rw [primaryKey]
    split
    · exact refuses_ok _
    · exact refuses_refuse _

theorem refuses_demand (key : Option String) (kind : String) : d.Refuses (d.demand key kind) := by
  rw [demand]
  split
  · exact refuses_ok _
  · exact refuses_refuse _

theorem refuses_checkColumn (t : Table) (column role : String) : d.Refuses (d.checkColumn t column role) := by
  rw [checkColumn]
  split
  · exact refuses_ok _
  · exact refuses_refuse _

theorem refuses_demandPivot : d.Refuses d.demandPivot := by
  intro e h
  obtain ⟨⟨name, part⟩, -, hpart⟩ := Outcome.of_forM_eq_error h
  simp only at hpart
  by_cases hnone : (given part).isNone
  · rw [if_pos hnone] at hpart
    exact refuses_refuse _ e hpart
  · rw [if_neg hnone] at hpart
    cases hpart

theorem refuses_checked {x y : Except Failure String} (hx : d.Refuses x) (hy : d.Refuses y) (s t : Table)
    (first second : String) : d.Refuses do
      let k ← x
      let l ← y
      d.checkColumn s k first
      d.checkColumn t l second
      return (k, l) := by
  refine hx.bind fun k => hy.bind fun l => ?_
  exact (refuses_checkColumn s k first).bind fun _ => (refuses_checkColumn t l second).bind fun _ => refuses_ok _

theorem refuses_keys (d : Declaration) : d.Refuses d.keys := by
  rw [keys]
  cases d.route with
  | through =>
    exact refuses_demandPivot.bind fun _ => refuses_checked (refuses_keyOr _ _ _) (refuses_keyOr _ _ _) _ _ _ _
  | direct =>
    cases d.reach with
    | one => exact refuses_checked (refuses_demand _ _) (refuses_keyOr _ _ _) _ _ _ _
    | many => exact refuses_checked (refuses_demand _ _) (refuses_keyOr _ _ _) _ _ _ _
  | reverse =>
    cases d.reach with
    | one => exact refuses_checked (refuses_keyOr _ _ _) (refuses_keyOr _ _ _) _ _ _ _
    | many => exact refuses_checked (refuses_demand _ _) (refuses_keyOr _ _ _) _ _ _ _

theorem refuses_complete (d : Declaration) : d.Refuses d.complete := by
  rw [complete]
  by_cases hf : d.field = ""
  · simp only [hf, if_true]
    exact (refuses_refuse _).bind fun _ => (refuses_keys d).bind fun _ => refuses_ok _
  · simp only [hf, if_false]
    exact (refuses_keys d).bind fun _ => refuses_ok _

end Refuses

/-- What may be wrong with a declaration. -/
inductive Faulty (d : Declaration) : Prop
  | field : d.field = "" → Faulty d
  | pivot : d.route = .through → ¬ d.HasPivot → Faulty d
  | foreignKey : d.DemandsForeignKey → given d.foreignKey = none → Faulty d
  | foreignDefault : given d.foreignKey = none → d.foreignSide.key.length ≠ 1 → Faulty d
  | modelDefault : given d.modelKey = none → d.modelSide.key.length ≠ 1 → Faulty d
  | foreignColumn (column : String) : resolved d.foreignKey d.foreignSide = some column →
    column ∉ d.foreignSide.columns → Faulty d
  | modelColumn (column : String) : resolved d.modelKey d.modelSide = some column →
    column ∉ d.modelSide.columns → Faulty d

theorem resolved_eq_some : resolved key t = some column ↔
    given key = some column ∨ given key = none ∧ t.key = [column] := by
  rw [resolved]
  cases given key with
  | some k => simp
  | none =>
    cases t.key with
    | nil => simp
    | cons first rest =>
      cases rest with
      | nil => simp
      | cons second rest => simp

theorem resolved_eq_none : resolved key t = none ↔ given key = none ∧ t.key.length ≠ 1 := by
  rw [resolved]
  cases given key with
  | some k => simp
  | none =>
    cases t.key with
    | nil => simp
    | cons first rest =>
      cases rest with
      | nil => simp
      | cons second rest => simp

/-- A declaration is refused exactly if something is wrong with it. -/
theorem complete_eq_error_iff : (∃ e, d.complete = .error e) ↔ d.Faulty := by
  constructor
  · rintro ⟨e, he⟩
    by_contra hfault
    have hfield : d.field ≠ "" := fun h => hfault (.field h)
    have hpivot : d.route = .through → d.HasPivot := fun h => by_contra fun hp => hfault (.pivot h hp)
    have hgiven : d.DemandsForeignKey → (given d.foreignKey).isSome := fun h => by
      rw [Option.isSome_iff_ne_none]
      exact fun hn => hfault (.foreignKey h hn)
    obtain ⟨foreignKey, hf⟩ : ∃ k, resolved d.foreignKey d.foreignSide = some k := by
      rw [← Option.ne_none_iff_exists']
      intro hn
      obtain ⟨h1, h2⟩ := resolved_eq_none.1 hn
      exact hfault (.foreignDefault h1 h2)
    obtain ⟨modelKey, hm⟩ : ∃ k, resolved d.modelKey d.modelSide = some k := by
      rw [← Option.ne_none_iff_exists']
      intro hn
      obtain ⟨h1, h2⟩ := resolved_eq_none.1 hn
      exact hfault (.modelDefault h1 h2)
    have hfc : foreignKey ∈ d.foreignSide.columns := by_contra fun h => hfault (.foreignColumn foreignKey hf h)
    have hmc : modelKey ∈ d.modelSide.columns := by_contra fun h => hfault (.modelColumn modelKey hm h)
    have hok := complete_eq_ok.2 ⟨hfield, foreignKey, modelKey, keys_eq_ok.2 ⟨hpivot, hgiven, hf, hm, hfc, hmc⟩, rfl⟩
    rw [he] at hok
    cases hok
  · intro hfault
    cases hc : d.complete with
    | error e => exact ⟨e, rfl⟩
    | ok r =>
      obtain ⟨hfield, foreignKey, modelKey, hkeys, -⟩ := complete_eq_ok.1 hc
      obtain ⟨hpivot, hgiven, hf, hm, hfc, hmc⟩ := keys_eq_ok.1 hkeys
      exfalso
      cases hfault with
      | field h => exact hfield h
      | pivot hroute hp => exact hp (hpivot hroute)
      | foreignKey hd hn =>
        have hsome := hgiven hd
        rw [hn] at hsome
        cases hsome
      | foreignDefault h1 h2 =>
        rw [resolved_eq_none.2 ⟨h1, h2⟩] at hf
        cases hf
      | modelDefault h1 h2 =>
        rw [resolved_eq_none.2 ⟨h1, h2⟩] at hm
        cases hm
      | foreignColumn column h1 h2 =>
        rw [hf] at h1
        cases h1
        exact h2 hfc
      | modelColumn column h1 h2 =>
        rw [hm] at h1
        cases h1
        exact h2 hmc

end Declaration

/-! ### Complete relations -/

/-- The column of the target that identifies related records, or that the pivot refers to. -/
def Relation.relatedKey (r : Relation) : String :=
  match r.route, r.reach with
  | .through, _ | .direct, .one => r.modelKey
  | _, _ => r.foreignKey

/-- What becomes of a declaration that is in order: given keys are kept, and those left out are the only key column of
their side. The key of the parents is a column of the source, the related key one of the target, and a relation through
a pivot has all of its parts. -/
structure Relation.CompletionOf (r : Relation) (d : Declaration) : Prop where
  declared : (r.field, r.reach, r.route, r.source, r.target, r.pivot) =
    (d.field, d.reach, d.route, d.source, d.target, d.pivot)
  foreignKey : Declaration.given d.foreignKey = some r.foreignKey ∨
    Declaration.given d.foreignKey = none ∧ d.foreignSide.key = [r.foreignKey]
  modelKey : Declaration.given d.modelKey = some r.modelKey ∨
    Declaration.given d.modelKey = none ∧ d.modelSide.key = [r.modelKey]
  parentKey : r.parentKey ∈ r.source.columns
  relatedKey : r.relatedKey ∈ r.target.columns
  pivot : r.route = .through → ∃ table sourceKey targetKey, table ≠ "" ∧ sourceKey ≠ "" ∧ targetKey ≠ "" ∧
    r.pivot = ⟨some table, some sourceKey, some targetKey⟩

namespace Declaration

variable {d : Declaration} {r : Relation} {key : Option String} {column : String}

theorem given_eq_some : given key = some column ↔ key = some column ∧ column ≠ "" := by
  rw [given, Option.filter_eq_some_iff]
  simp

theorem HasPivot.exists_parts (h : d.HasPivot) : ∃ table sourceKey targetKey, table ≠ "" ∧ sourceKey ≠ "" ∧
    targetKey ≠ "" ∧ d.pivot = ⟨some table, some sourceKey, some targetKey⟩ := by
  obtain ⟨h1, h2, h3⟩ := h
  obtain ⟨table, h1⟩ := Option.isSome_iff_exists.1 h1
  obtain ⟨sourceKey, h2⟩ := Option.isSome_iff_exists.1 h2
  obtain ⟨targetKey, h3⟩ := Option.isSome_iff_exists.1 h3
  obtain ⟨h1, ht⟩ := given_eq_some.1 h1
  obtain ⟨h2, hs⟩ := given_eq_some.1 h2
  obtain ⟨h3, hk⟩ := given_eq_some.1 h3
  exact ⟨table, sourceKey, targetKey, ht, hs, hk, by rw [← h1, ← h2, ← h3]⟩

/-- The key of the parents is the key on the side of the source, and the related key that on the side of the target. -/
theorem keys_by_side (hroute : r.route = d.route) (hreach : r.reach = d.reach) :
    (d.foreignSide = d.source ∧ d.modelSide = d.target ∧ r.parentKey = r.foreignKey ∧ r.relatedKey = r.modelKey) ∨
      (d.foreignSide = d.target ∧ d.modelSide = d.source ∧ r.parentKey = r.modelKey ∧ r.relatedKey = r.foreignKey) := by
  rw [foreignSide, modelSide, Relation.parentKey, Relation.sourceHoldsForeignKey, Relation.relatedKey, ← hroute,
    ← hreach]
  cases r.route with
  | through => exact .inl ⟨rfl, rfl, rfl, rfl⟩
  | direct =>
    cases r.reach with
    | one => exact .inl ⟨rfl, rfl, rfl, rfl⟩
    | many => exact .inr ⟨rfl, rfl, rfl, rfl⟩
  | reverse => exact .inr ⟨rfl, rfl, by simp, rfl⟩

/-- A relation is what its declaration makes of it. -/
theorem completionOf_complete (h : d.complete = .ok r) : r.CompletionOf d := by
  obtain ⟨-, foreignKey, modelKey, hkeys, hr⟩ := complete_eq_ok.1 h
  obtain ⟨hpivot, -, hf, hm, hfc, hmc⟩ := keys_eq_ok.1 hkeys
  have hcolumns : r.parentKey ∈ d.source.columns ∧ r.relatedKey ∈ d.target.columns := by
    obtain ⟨hfs, hms, hp, hrel⟩ | ⟨hfs, hms, hp, hrel⟩ := keys_by_side (r := r) (d := d) (by rw [hr]) (by rw [hr])
    · rw [hfs] at hfc
      rw [hms] at hmc
      rw [hp, hrel, hr]
      exact ⟨hfc, hmc⟩
    · rw [hfs] at hfc
      rw [hms] at hmc
      rw [hp, hrel, hr]
      exact ⟨hmc, hfc⟩
  subst hr
  exact ⟨rfl, resolved_eq_some.1 hf, resolved_eq_some.1 hm, hcolumns.1, hcolumns.2,
    fun hroute => (hpivot hroute).exists_parts⟩

end Declaration

end RecordSql
