import RecordSql.Value.Basic

/-!
# Scopes

A `Scope` holds values under names, and gives numbers to things, so that each stays one thing wherever it is put.
`Scope.update` says what has become of a thing, for all values of the scope at once.
-/

namespace RecordSql

structure Scope where
  /-- Named values, the latest first; a later one hides an earlier one of its name. -/
  bindings : List (String × Value)
  /-- How many numbers have been given. -/
  numbered : Nat

namespace Scope

def empty : Scope := ⟨[], 0⟩

/-- The value of a name. -/
def get? (s : Scope) (name : String) : Option Value := s.bindings.lookup name

/-- Names a value. -/
def bind (s : Scope) (name : String) (v : Value) : Scope := { s with bindings := (name, v) :: s.bindings }

/-- A value under a number that no other has, if it is a thing. -/
def identify (s : Scope) (v : Value) : Value × Scope := (v.identify s.numbered, { s with numbered := s.numbered + 1 })

/-- The thing of a number as it is now. -/
def now (s : Scope) (n : Nat) : Option Value :=
  (s.bindings.find? fun (_, v) => v.identity = some n).map (·.2)

/-- A value with the things of the scope in it as they are now. -/
def renew (s : Scope) (v : Value) : Value := v.renew s.now

/-- The scope after a thing has become the given value. -/
def update (s : Scope) (v : Value) : Scope :=
  match v.identity with
  | none => s
  | some n =>
    { s with bindings := s.bindings.map fun (name, w) => (name, w.renew fun m => if m = n then some v else none) }

/-- The scope after items were taken from a value one by one, up to the first that was refused. Only a stream has fewer
afterwards. -/
def take (s : Scope) (v : Value) (accept : Value → Bool) : Scope :=
  match v with
  | .stream id items => s.update (.stream id ((items.dropWhile accept).drop 1))
  | _ => s

/-- The scope after the streams of these numbers were read to their ends. -/
def drain (s : Scope) (numbers : List Nat) : Scope := numbers.foldl (fun s n => s.update (.stream (some n) [])) s

end Scope

end RecordSql
