import RecordSql.Failure

/-!
# Pools

The free connections of a database, in order. The one that was given back last is taken first.
-/

namespace RecordSql

abbrev Pool (κ : Type) := List κ

namespace Pool

variable {κ : Type}

/-- Takes the last connection out of the pool. -/
def take (pool : Pool κ) : Except Failure (κ × Pool κ) :=
  match pool.getLast? with
  | some c => .ok (c, pool.dropLast)
  | none => .error .poolExhausted

/-- Gives a connection back. -/
def put (pool : Pool κ) (c : κ) : Pool κ := pool ++ [c]

/-- What was given back last is taken next, and leaves the pool as it was. -/
theorem take_put (pool : Pool κ) (c : κ) : (pool.put c).take = .ok (c, pool) := by
  simp [put, take]

/-- Giving back what was taken restores the pool. -/
theorem put_of_take {pool rest : Pool κ} {c : κ} (h : pool.take = .ok (c, rest)) :
    rest.put c = pool := by
  unfold take at h
  split at h
  · rename_i d hd
    obtain ⟨front, rfl⟩ := List.getLast?_eq_some_iff.1 hd
    obtain ⟨rfl, rfl⟩ := Prod.mk.inj (Except.ok.inj h)
    simp [put]
  · cases h

end Pool

end RecordSql
