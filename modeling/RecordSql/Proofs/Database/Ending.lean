import RecordSql.Proofs.Database.Life

/-!
# Ends of transactions

A transaction that was begun is committed, or a ROLLBACK is sent, before the connection goes back to the pool. Closing a
session in a transaction, and leaving a block of work that failed, send nothing but ROLLBACK from there on. Leaving a
block that did not fail sends COMMIT, and ROLLBACK if that fails.
-/

namespace RecordSql.Session

variable {ω κ : Type}

/-! ### Deeds that begin and end a transaction -/

namespace Deed

/-- A command that was sent, and how it failed if it did. -/
def sent (c : κ) (ctl : Control) (failure : Option Failure) : Deed κ :=
  ⟨.control ctl, failure.elim (.ok ()) .error, [.executed c ctl.sql [] failure]⟩

/-- The deed starts a transaction. -/
def Begins (d : Deed κ) : Prop := d.act = .control .begin ∧ d.outcome = .ok ()

/-- The deed ends a transaction: COMMIT succeeded, or ROLLBACK was sent. -/
def Ends (c : κ) (d : Deed κ) : Prop := d = sent c .commit none ∨ ∃ failure, d = sent c .rollback failure

end Deed

/-- A transaction was begun and has not been ended. -/
def Open (c : κ) (history : List (Deed κ)) : Prop :=
  ∃ before b between, history = before ++ b :: between ∧ b.Begins ∧ ∀ d ∈ between, ¬ d.Ends c

/-- The connection was never given back while a transaction was open. -/
def Guarded (c : κ) (history : List (Deed κ)) : Prop :=
  ∀ before f rest, history = before ++ f :: rest → f.act = .finish → ¬ Open c before

section History

variable {c : κ} {history : List (Deed κ)} {d : Deed κ}

theorem open_concat : Open c (history ++ [d]) ↔ d.Begins ∨ Open c history ∧ ¬ d.Ends c := by
  constructor
  · rintro ⟨before, b, between, h, hb, hbetween⟩
    -- the last deed begins the transaction itself, or comes after the one that did
    rcases List.eq_nil_or_concat between with rfl | ⟨middle, x, rfl⟩
    · obtain ⟨-, hd⟩ := List.append_inj' h rfl
      cases hd
      exact .inl hb
    · rw [List.concat_eq_append, ← List.cons_append, ← List.append_assoc] at h
      obtain ⟨hh, hd⟩ := List.append_inj' h rfl
      cases hd
      refine .inr ⟨⟨before, b, middle, hh, hb, fun y hy => hbetween y ?_⟩, hbetween d ?_⟩
      · simp [hy]
      · simp
  · rintro (hd | ⟨⟨before, b, between, rfl, hb, hbetween⟩, hd⟩)
    · exact ⟨history, d, [], rfl, hd, by simp⟩
    · refine ⟨before, b, between ++ [d], by simp, hb, fun x hx => ?_⟩
      rcases List.mem_append.1 hx with hx | hx
      · exact hbetween x hx
      · rw [List.mem_singleton.1 hx]
        exact hd

theorem Guarded.concat (h : Guarded c history) (hd : d.act = .finish → ¬ Open c history) :
    Guarded c (history ++ [d]) := by
  intro before f rest hsplit hf
  rcases List.eq_nil_or_concat rest with rfl | ⟨rest, x, rfl⟩
  · obtain ⟨rfl, hx⟩ := List.append_inj' hsplit rfl
    cases hx
    exact hd hf
  · rw [List.concat_eq_append, ← List.cons_append, ← List.append_assoc] at hsplit
    obtain ⟨hh, -⟩ := List.append_inj' hsplit rfl
    exact h before f rest hh hf

end History

/-! ### Transactions of a session -/

variable (e : Engine ω κ) (t : SessionState ω κ)

/-- A command that is not refused is sent, and changes the session if it succeeds. -/
theorem Control.deed_of_accepted {ctl : Control} (hr : ctl.refusal? t.session = none) :
    (Act.control ctl).deed e t = .sent t.session.connection ctl none ∧
        ((Act.control ctl).next e t).session = ctl.effect t.session ∨
      ∃ f, (Act.control ctl).deed e t = .sent t.session.connection ctl (some f) ∧
        ((Act.control ctl).next e t).session = t.session := by
  rw [Act.deed_control, Act.next, Act.task, run_task, hr]
  cases (e.adapter.execute t.session.connection ctl.sql []).run t.engine.database with
  | mk outcome w => cases outcome with
    | ok cursor => exact .inl ⟨rfl, rfl⟩
    | error f => exact .inr ⟨f, rfl, rfl⟩

theorem Control.exists_sent {ctl : Control} (hr : ctl.refusal? t.session = none) :
    ∃ r, (Act.control ctl).deed e t = .sent t.session.connection ctl r := by
  rcases deed_of_accepted e t hr with ⟨hsent, -⟩ | ⟨f, hsent, -⟩
  · exact ⟨none, hsent⟩
  · exact ⟨some f, hsent⟩

variable {e t} {c : κ} {history : List (Deed κ)}

/-- While a transaction is open in the history, the session is in one. -/
structure Tended (c : κ) (history : List (Deed κ)) (t : SessionState ω κ) : Prop where
  connection : t.session.connection = c
  guarded : Guarded c history
  active : Open c history → t.session.phase = .active

theorem Act.Course.active_of_open {s s' : Session κ} {pool pool' : Option (Pool κ)} {d : Deed κ}
    (h : Act.Course s pool d s' pool') (hactive : Open s.connection history → s.phase = .active)
    (hd : d.act = .finish → ¬ Open s.connection history) (hopen : Open s.connection (history ++ [d])) :
    s'.phase = .active := by
  rw [open_concat] at hopen
  cases h with
  | statement st outcome calls hp hcalls =>
    rcases hopen with ⟨hact, -⟩ | ⟨hopen, -⟩
    · cases hact
    · exact hactive hopen
  | refusedStatement st hp =>
    rcases hopen with ⟨hact, -⟩ | ⟨hopen, -⟩
    · cases hact
    · exact hactive hopen
  | refused ctl f hr =>
    rcases hopen with ⟨-, ho⟩ | ⟨hopen, -⟩
    · cases ho
    · exact hactive hopen
  | failed ctl f hr =>
    rcases hopen with ⟨-, ho⟩ | ⟨hopen, -⟩
    · cases ho
    · exact hactive hopen
  | done ctl hr =>
    rcases hopen with ⟨hact, -⟩ | ⟨hopen, hends⟩
    · cases hact
      rfl
    · -- only COMMIT and ROLLBACK take the session out of the transaction, and both end it
      have hp := hactive hopen
      cases ctl with
      | begin => rfl
      | commit => exact absurd (.inl rfl) hends
      | rollback => exact absurd (.inr ⟨none, rfl⟩) hends
      | savepoint name => exact hp
      | rollbackTo name => exact hp
  | finished outcome ho =>
    rcases hopen with ⟨hact, -⟩ | ⟨hopen, -⟩
    · cases hact
    · exact absurd hopen (hd rfl)

theorem Tended.act (h : Tended c history t) (a : Act) (ha : a = .finish → ¬ Open c history) :
    Tended c (history ++ [a.deed e t]) (a.next e t) := by
  obtain ⟨rfl, hguarded, hactive⟩ := h
  exact ⟨(a.course e t).connection, hguarded.concat ha, (a.course e t).active_of_open hactive ha⟩

/-- A session that is closed in a transaction sends ROLLBACK before it gives its connection back. -/
theorem Tended.closing (h : Tended c history t) :
    Tended c (history ++ deedsOf e t (closing t.session)) (afterActs e (closing t.session) t) := by
  rw [Session.closing]
  cases hp : t.session.phase with
  | closed => simpa [deedsOf, afterActs] using h
  | idle =>
    -- were a transaction open, the session would be in it
    refine h.act .finish fun _ hopen => ?_
    rw [h.active hopen] at hp
    cases hp
  | active =>
    have hr : Control.rollback.refusal? t.session = none := by simp [Control.refusal?, hp]
    have hrollback := h.act (e := e) (.control .rollback) (by simp)
    have hended : ¬ Open c (history ++ [(Act.control .rollback).deed e t]) := by
      rw [open_concat]
      rintro (⟨hact, -⟩ | ⟨-, hends⟩)
      · cases hact
      · refine hends (.inr ?_)
        rw [← h.connection]
        exact Control.exists_sent e t hr
    have hlast := hrollback.act (e := e) .finish fun _ => hended
    rw [List.append_assoc] at hlast
    exact hlast

theorem Tended.next (h : Tended c history t) (o : Operation) :
    Tended c (history ++ o.deeds e t) (o.next e t) := by
  rw [o.next_eq, Operation.deeds]
  cases o with
  | run st => exact h.act (.statement st) (by simp)
  | control ctl => exact h.act (.control ctl) (by simp)
  | close => exact h.closing
  | leave failed =>
    by_cases hp : t.session.phase = .active
    · have hend := (h.act (e := e) (.control (ending failed)) (by simp)).closing (e := e)
      rw [List.append_assoc] at hend
      rw [Operation.acts_leave_active e failed hp]
      exact hend
    · rw [Operation.acts_leave_of_ne e failed hp]
      exact h.closing

theorem Tended.after (h : Tended c history t) (ops : List Operation) :
    Tended c (history ++ deeds e t ops) (after e ops t) := by
  induction ops generalizing history t with
  | nil => simpa [deeds, Session.after] using h
  | cons o rest ih =>
    have hrest := ih (h.next (e := e) o)
    rw [List.append_assoc] at hrest
    exact hrest

/-! ### How a session is left -/

theorem Control.next_pool (ctl : Control) : ((Act.control ctl).next e t).engine.pool = t.engine.pool := by
  apply ((Act.control ctl).course e t).pool_eq
  rintro ⟨⟩

variable {free : Pool κ}

end RecordSql.Session

namespace RecordSql.Rehearsal

open Session (start leave after deeds Operation Deed)

end RecordSql.Rehearsal
