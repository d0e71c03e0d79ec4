import RecordSql.Connector

/-!
# Running tasks

What each way of putting tasks together does to the state, as equations. A failure keeps the state that was reached.
-/

namespace RecordSql.Task

variable {σ α β : Type} (s : σ)

theorem run_bind (x : Task σ α) (f : α → Task σ β) :
    (x >>= f).run s = match x.run s with
      | (.ok a, t) => (f a).run t
      | (.error e, t) => (.error e, t) := by
  show (ExceptT.bindCont f (x s).1 (x s).2) = _
  cases h : x s with
  | mk outcome t =>
    rw [show ExceptT.run x s = (outcome, t) from h]
    cases outcome <;> rfl

theorem run_bind_of_ok {x : Task σ α} {f : α → Task σ β} {s t : σ} {a : α} (h : x.run s = (.ok a, t)) :
    (x >>= f).run s = (f a).run t := by
  rw [run_bind, h]

theorem run_bind_of_error {x : Task σ α} {f : α → Task σ β} {s t : σ} {e : Failure}
    (h : x.run s = (.error e, t)) : (x >>= f).run s = (.error e, t) := by
  rw [run_bind, h]

/-- A sequence succeeds if both parts do. -/
theorem run_bind_eq_ok {x : Task σ α} {f : α → Task σ β} {s t : σ} {b : β} :
    (x >>= f).run s = (.ok b, t) ↔ ∃ a u, x.run s = (.ok a, u) ∧ (f a).run u = (.ok b, t) := by
  rw [run_bind]
  cases h : x.run s with
  | mk outcome u =>
    cases outcome with
    | error e =>
      constructor
      · intro hf
        cases hf
      · rintro ⟨a, u', ha, -⟩
        cases ha
    | ok a =>
      constructor
      · intro hf
        exact ⟨a, u, rfl, hf⟩
      · rintro ⟨a', u', ha, hf⟩
        cases ha
        exact hf

theorem run_ofExcept_eq_ok {outcome : Except Failure α} {s t : σ} {a : α} :
    (ofExcept outcome).run s = (.ok a, t) ↔ outcome = .ok a ∧ t = s := by
  constructor
  · rintro ⟨⟩
    exact ⟨rfl, rfl⟩
  · rintro ⟨rfl, rfl⟩
    rfl

theorem run_ofExcept (outcome : Except Failure α) : (ofExcept outcome).run s = (outcome, s) := rfl

theorem ofExcept_ok_bind (a : α) (f : α → Task σ β) : ofExcept (.ok a) >>= f = f a := rfl

theorem ofExcept_error_bind (e : Failure) (f : α → Task σ β) : ofExcept (.error e) >>= f = ofExcept (.error e) := rfl

theorem run_attempt (x : Task σ α) : (attempt x).run s = (.ok (x.run s).1, (x.run s).2) := rfl

/-- The other task is done in the state that the first has reached, and its failure counts more. -/
theorem run_andThen (x : Task σ α) (last : Task σ Unit) :
    (andThen x last).run s = match last.run (x.run s).2 with
      | (.ok _, t) => ((x.run s).1, t)
      | (.error e, t) => (.error e, t) := by
  rw [andThen, run_bind_of_ok (run_attempt s x), run_bind]
  cases h : last.run (x.run s).2 with
  | mk outcome t => cases outcome <;> rfl

theorem run_bind_get (f : σ → Task σ β) : (get >>= f : Task σ β).run s = (f s).run s := rfl

@[simp] theorem run_pure (a : α) : (pure a : Task σ α).run s = (.ok a, s) := rfl

@[simp] theorem run_get : (get : Task σ σ).run s = (.ok s, s) := rfl

@[simp] theorem run_throw (e : Failure) : (throw e : Task σ α).run s = (.error e, s) := rfl

/-- Work that cannot fail, as a task. -/
theorem run_lift (x : StateM σ α) : (liftM x : Task σ α).run s = (.ok (x.run s).1, (x.run s).2) := rfl

theorem run_discard (x : Task σ α) :
    (discard x : Task σ PUnit).run s = ((x.run s).1.map fun _ => ⟨⟩, (x.run s).2) := by
  show (x >>= fun _ => (pure ⟨⟩ : Task σ PUnit)).run s = _
  rw [run_bind]
  cases h : x.run s with
  | mk outcome t => cases outcome <;> rfl

end RecordSql.Task
