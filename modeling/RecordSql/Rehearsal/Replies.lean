import RecordSql.Connector

/-!
# Scripted replies

A connector that answers statements from a list, in order, and remembers what it ran and logged. A statement that the
script refuses counts as run; when the list is used up, every statement has no rows.
-/

namespace RecordSql.Rehearsal

structure Replies where
  pending : List (Except Failure (List Row))
  ran : List Statement
  log : List LogLine

namespace Replies

def ofList (pending : List (Except Failure (List Row))) : Replies := ⟨pending, [], []⟩

/-- The same script with nothing remembered. -/
def forget (r : Replies) : Replies := { r with ran := [], log := [] }

/-- Answers a statement by the next reply. -/
def answer (s : Statement) : Task Replies (List Row) := fun r =>
  let r' := { r with ran := r.ran ++ [s], pending := r.pending.drop 1 }
  (r.pending.head?.getD (.ok []), r')

end Replies

/-- The connector that answers from a script. -/
def connector : Connector Replies where
  run := Replies.answer
  log line r := { r with log := r.log ++ [line] }

end RecordSql.Rehearsal
