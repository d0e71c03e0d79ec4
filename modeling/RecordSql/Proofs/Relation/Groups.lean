import RecordSql.Proofs.Value.KeyForm
import RecordSql.Relation.Batch

/-!
# Keys and groups

The keys of a batch are the values of the parents without nulls and repetitions, in order of first appearance. Grouping
the related records and looking a key up gives the records under equal keys, in order: the groups are as good as
going through all of the records for each key.
-/

namespace RecordSql

variable {r : Relation} {rows : List Row} {keys : List Value}

/-! ### The keys of a batch -/

namespace Relation

/-- The values of rows that lead to related records. -/
def leads (r : Relation) (rows : List Row) : List Value := (rows.map r.parentValue).filter fun v => !v.isNull

/-- The values without those that are equal to an earlier one. -/
def distinct (values : List Value) : List Value := values.eraseDupsBy fun v w => w.eqv v

theorem leads_cons (row : Row) : r.leads (row :: rows) =
    if (r.parentValue row).isNull then r.leads rows else r.parentValue row :: r.leads rows := by
  rw [leads, List.map_cons, List.filter_cons, ← leads]
  cases (r.parentValue row).isNull <;> rfl

theorem distinct_cons (v : Value) (values : List Value) :
    distinct (v :: values) = v :: distinct (values.filter fun w => !v.eqv w) := by
  rw [distinct, List.eraseDupsBy_cons, ← distinct]
  simp only [Bool.decide_eq_false]

theorem distinct_sublist (values : List Value) : (distinct values).Sublist values := by
  induction hn : values.length using Nat.strongRecOn generalizing values with
  | ind n ih =>
    cases values with
    | nil => exact List.Sublist.refl []
    | cons v values =>
      rw [distinct_cons]
      have hl := List.length_filter_le (fun w => !v.eqv w) values
      exact ((ih _ (by rw [← hn, List.length_cons]; omega) _ rfl).trans List.filter_sublist).cons_cons v

/-- No two of the distinct values are equal. -/
theorem pairwise_distinct (values : List Value) : (distinct values).Pairwise fun v w => ¬ v.eqv w := by
  induction hn : values.length using Nat.strongRecOn generalizing values with
  | ind n ih =>
    cases values with
    | nil => exact .nil
    | cons v values =>
      rw [distinct_cons, List.pairwise_cons]
      have hl := List.length_filter_le (fun w => !v.eqv w) values
      refine ⟨fun w hw => ?_, ih _ (by rw [← hn, List.length_cons]; omega) _ rfl⟩
      simpa using (List.mem_filter.1 ((distinct_sublist _).subset hw)).2

/-- A value is one of the distinct values, or one of them is equal to it. -/
theorem exists_distinct {values : List Value} {w : Value} (hw : w ∈ values) :
    ∃ v ∈ distinct values, v = w ∨ v.eqv w = true := by
  induction hn : values.length using Nat.strongRecOn generalizing values with
  | ind n ih =>
    cases values with
    | nil => cases hw
    | cons v values =>
      rw [distinct_cons]
      by_cases hv : v = w ∨ v.eqv w = true
      · exact ⟨v, List.mem_cons_self, hv⟩
      · rw [not_or] at hv
        have hl := List.length_filter_le (fun w => !v.eqv w) values
        have hrest : w ∈ values.filter fun w => !v.eqv w :=
          List.mem_filter.2 ⟨(List.mem_cons.1 hw).resolve_left (Ne.symm hv.1), by simpa using hv.2⟩
        obtain ⟨u, hu, huw⟩ := ih _ (by rw [← hn, List.length_cons]; omega) hrest rfl
        exact ⟨u, List.mem_cons_of_mem _ hu, huw⟩

theorem distinct_eq_nil_iff {values : List Value} : distinct values = [] ↔ values = [] := by
  cases values with
  | nil => simp [distinct]
  | cons v values => simp [distinct_cons]

theorem isNull_of_mem_leads {v : Value} (h : v ∈ r.leads rows) : v.isNull = false := by
  simpa using (List.mem_filter.1 h).2

/-- One step of collecting keys. -/
def collect (r : Relation) (seen : List Value) (row : Row) : Except Failure (List Value) :=
  let key := r.parentValue row
  if key.isNull then .ok seen
  else key.checkKey.map fun _ => if seen.any (·.eqv key) then seen else seen ++ [key]

theorem foldlM_collect_eq_ok {seen : List Value} : rows.foldlM r.collect seen = .ok keys ↔
    (∀ v ∈ r.leads rows, v.checkKey = .ok ()) ∧
      keys = seen ++ distinct ((r.leads rows).filter fun v => !seen.any (·.eqv v)) := by
  induction rows generalizing seen with
  | nil => simp [leads, distinct, eq_comm]
  | cons row rows ih =>
    rw [List.foldlM_cons, Outcome.bind_eq_ok, leads_cons, collect]
    by_cases hn : (r.parentValue row).isNull
    · simp only [hn, if_true, Except.ok.injEq, exists_eq_left']
      exact ih
    · simp only [hn, Bool.false_eq_true, if_false, Outcome.map_eq_ok, List.forall_mem_cons, List.filter_cons]
      by_cases hs : seen.any (·.eqv (r.parentValue row))
      · simp only [hs, if_true, Bool.not_true, Bool.false_eq_true, if_false]
        constructor
        · rintro ⟨_, ⟨_, hk, rfl⟩, h⟩
          obtain ⟨h1, h2⟩ := ih.1 h
          exact ⟨⟨hk, h1⟩, h2⟩
        · rintro ⟨⟨hk, h1⟩, h2⟩
          exact ⟨seen, ⟨(), hk, rfl⟩, ih.2 ⟨h1, h2⟩⟩
      · have hrest : distinct ((r.leads rows).filter fun v => !(seen ++ [r.parentValue row]).any (·.eqv v)) =
            distinct (((r.leads rows).filter fun v => !seen.any (·.eqv v)).filter
              fun w => !(r.parentValue row).eqv w) := by
          rw [List.filter_filter]
          congr 2
          funext v
          simp [Bool.and_comm]
        simp only [hs, Bool.not_false, if_true, Bool.false_eq_true, if_false, distinct_cons]
        constructor
        · rintro ⟨_, ⟨_, hk, rfl⟩, h⟩
          obtain ⟨h1, h2⟩ := ih.1 h
          exact ⟨⟨hk, h1⟩, by rw [h2, hrest, List.append_assoc, List.singleton_append]⟩
        · rintro ⟨⟨hk, h1⟩, h2⟩
          exact ⟨_, ⟨(), hk, rfl⟩, ih.2 ⟨h1, by rw [h2, hrest, List.append_assoc, List.singleton_append]⟩⟩

/-- The keys are the values that lead somewhere, without repetitions. All of these have to be keys. -/
theorem collectKeys_eq_ok : r.collectKeys rows = .ok keys ↔
    (∀ v ∈ r.leads rows, v.checkKey = .ok ()) ∧ keys = distinct (r.leads rows) := by
  show rows.foldlM r.collect [] = .ok keys ↔ _
  rw [foldlM_collect_eq_ok]
  simp

end Relation

/-! ### Groups -/

namespace Groups

variable {g : Groups} {key v p : Value}

theorem get_cons (k : Value) (vs : List Value) (g : Groups) (p : Value) :
    Groups.get ((k, vs) :: g) p = if k.eqv p then vs else g.get p := by
  cases h : k.eqv p <;> simp [Groups.get, h]

/-- What is added under a key is found under all keys that are equal to it, behind what was there. -/
theorem get_add (hg : ∀ e ∈ g, e.1.checkKey = .ok ()) (hk : key.checkKey = .ok ()) (hp : p.checkKey = .ok ()) :
    (g.add key v).get p = if key.eqv p then g.get p ++ [v] else g.get p := by
  induction g with
  | nil =>
    rw [Groups.add, get_cons]
    rfl
  | cons e g ih =>
    obtain ⟨k, vs⟩ := e
    obtain ⟨hk', hg⟩ := List.forall_mem_cons.1 hg
    rw [Groups.add]
    by_cases hkk : k.eqv key
    · have hiff : k.eqv p = key.eqv p := by
        rw [Bool.eq_iff_iff]
        exact ⟨Value.eqv_trans hk hk' (Value.eqv_symm hk' hk hkk), Value.eqv_trans hk' hk hkk⟩
      rw [if_pos hkk, get_cons, get_cons, hiff]
      split <;> rfl
    · rw [if_neg hkk, get_cons, get_cons, ih hg]
      by_cases hkp : k.eqv p
      · have hne : ¬ key.eqv p := fun h => hkk (Value.eqv_trans hk' hp hkp (Value.eqv_symm hk hp h))
        rw [if_pos hkp, if_neg hne]
        simp [hkp]
      · simp [hkp]

theorem checkKey_add (hg : ∀ e ∈ g, e.1.checkKey = .ok ()) (hk : key.checkKey = .ok ()) :
    ∀ e ∈ g.add key v, e.1.checkKey = .ok () := by
  induction g with
  | nil => simpa [Groups.add] using hk
  | cons e g ih =>
    obtain ⟨k, vs⟩ := e
    obtain ⟨hk', hg⟩ := List.forall_mem_cons.1 hg
    rw [Groups.add]
    split
    · exact List.forall_mem_cons.2 ⟨hk', hg⟩
    · exact List.forall_mem_cons.2 ⟨hk', ih hg⟩

/-- Looking a key up gives all that was added under equal keys, in order. -/
theorem get_foldl_add {entries : List (Value × Value)} (hg : ∀ e ∈ g, e.1.checkKey = .ok ())
    (he : ∀ e ∈ entries, e.1.checkKey = .ok ()) (hp : p.checkKey = .ok ()) :
    (entries.foldl (fun g e => g.add e.1 e.2) g).get p =
      g.get p ++ (entries.filter fun e => e.1.eqv p).map (·.2) := by
  induction entries generalizing g with
  | nil => simp
  | cons e entries ih =>
    obtain ⟨hk, he⟩ := List.forall_mem_cons.1 he
    rw [List.foldl_cons, ih (checkKey_add hg hk) he, get_add hg hk hp, List.filter_cons]
    by_cases hkp : e.1.eqv p <;> simp [hkp]

end Groups

namespace Relation

/-- The key and the record of a related row. -/
def entry (r : Relation) (reply : Row) : Except Failure (Value × Value) := do
  let some key := reply.get? relationKey | throw (.absentColumn relationKey)
  key.checkKey
  return (key, ← r.target.plan.run reply.base)

theorem addToGroup_eq (groups : Groups) (reply : Row) :
    r.addToGroup groups reply = (r.entry reply).map fun e => groups.add e.1 e.2 := by
  rw [addToGroup, entry]
  cases reply.get? relationKey with
  | none => rfl
  | some key =>
    cases hk : key.checkKey with
    | error e => simp [hk]
    | ok u =>
      simp only [hk, Outcome.ok_bind]
      cases r.target.plan.run reply.base <;> rfl

theorem entry_eq_ok {reply : Row} {e : Value × Value} : r.entry reply = .ok e ↔
    reply.get? relationKey = some e.1 ∧ e.1.checkKey = .ok () ∧ r.target.plan.run reply.base = .ok e.2 := by
  obtain ⟨key, record⟩ := e
  rw [entry]
  cases reply.get? relationKey with
  | none => simp
  | some k =>
    simp only [Outcome.bind_eq_ok, Outcome.pure_eq, Except.ok.injEq, Prod.mk.injEq, Option.some.injEq]
    constructor
    · rintro ⟨_, hk, _, hv, rfl, rfl⟩
      exact ⟨rfl, hk, hv⟩
    · rintro ⟨rfl, hk, hv⟩
      exact ⟨(), hk, _, hv, rfl, rfl⟩

/-- Grouping is reading all rows, then adding their records one after the other. -/
theorem foldlM_addToGroup (replies : List Row) (groups : Groups) :
    replies.foldlM r.addToGroup groups =
      (replies.mapM r.entry).map fun entries => entries.foldl (fun g e => g.add e.1 e.2) groups := by
  induction replies generalizing groups with
  | nil => rfl
  | cons reply replies ih =>
    rw [List.foldlM_cons, addToGroup_eq, Outcome.mapM_cons]
    cases r.entry reply with
    | error e => rfl
    | ok e =>
      rw [Outcome.map_ok, Outcome.ok_bind, Outcome.ok_bind, ih]
      cases replies.mapM r.entry <;> rfl

end Relation

end RecordSql
