import RecordSql.Proofs.Database.Control

/-!
# Savepoints

A session keeps a list of the savepoints that it has set, and the database keeps a stack of them. On a rollback to a
name the session keeps the names up to the first that is the given one, the database those up to the last. Both agree as
long as no rollback goes to a name that is on the stack twice, and not longer.
-/

namespace RecordSql.Session

/-! ### Stacks of savepoints -/

section Stack

variable {name : String} {tracked stack front back : List String}

/-- The names up to the last that is the given one. -/
def upToLast (name : String) (stack : List String) : List String := (stack.reverse.dropWhile (· ≠ name)).reverse

theorem upTo_split (hf : name ∉ front) : upTo name (front ++ name :: back) = front ++ [name] := by
  induction front with
  | nil => simp [upTo]
  | cons a front ih =>
    rw [List.mem_cons, not_or] at hf
    rw [List.cons_append, upTo, if_neg (Ne.symm hf.1), ih hf.2, List.cons_append]

theorem upToLast_split (hb : name ∉ back) : upToLast name (front ++ name :: back) = front ++ [name] := by
  have hr : ∀ a ∈ back.reverse, decide (a ≠ name) = true := by
    intro a ha
    rw [List.mem_reverse] at ha
    exact decide_eq_true fun he => hb (he ▸ ha)
  rw [upToLast, List.reverse_append, List.reverse_cons, List.append_assoc, List.dropWhile_append_of_pos hr,
    List.singleton_append, List.dropWhile_cons_of_neg (by simp), List.reverse_cons, List.reverse_reverse]

/-- A name that is in a list is in it for the last time somewhere. -/
theorem exists_last (h : name ∈ stack) : ∃ front back, stack = front ++ name :: back ∧ name ∉ back := by
  obtain ⟨back, front, he, hb⟩ := List.eq_append_cons_of_mem (List.mem_reverse.2 h)
  refine ⟨front.reverse, back.reverse, ?_, by simpa using hb⟩
  rw [← List.reverse_reverse stack, he]
  simp

/-- If the session has forgotten some names, it has still forgotten some after both have rolled back. -/
theorem upTo_sublist_upToLast (h : tracked.Sublist stack) (hn : name ∈ tracked) :
    (upTo name tracked).Sublist (upToLast name stack) := by
  obtain ⟨tf, tb, rfl, htf⟩ := List.eq_append_cons_of_mem hn
  obtain ⟨sf, sb, rfl, hsb⟩ := exists_last (h.subset hn)
  rw [upTo_split htf, upToLast_split hsb]
  have hle : (tf ++ [name]).Sublist ((sf ++ [name]) ++ sb) := by
    refine List.Sublist.trans ?_ (by simpa using h)
    simp
  obtain ⟨a, b, he, ha, hb⟩ := List.sublist_append_iff.1 hle
  -- what lies in the end of the stack would end with the name, which is not there
  rcases List.eq_nil_or_concat b with rfl | ⟨b', x, rfl⟩
  · rw [List.append_nil] at he
    rwa [he]
  · rw [List.concat_eq_append, ← List.append_assoc] at he
    have hx : name = x := by simpa using (List.append_inj' he rfl).2
    exact absurd (hb.subset (by simp [hx])) hsb

/-- The first and the last occurrence are the same if there is one only. -/
theorem upTo_eq_upToLast_iff (hn : name ∈ stack) : upTo name stack = upToLast name stack ↔ stack.count name = 1 := by
  obtain ⟨front, back, rfl, hf⟩ := List.eq_append_cons_of_mem hn
  rw [upTo_split hf, List.count_append, List.count_eq_zero.2 hf, List.count_cons_self]
  constructor
  · intro h
    refine Classical.byContradiction fun hc => ?_
    have hb : name ∈ back := List.one_le_count_iff.1 (by omega)
    obtain ⟨middle, rest, rfl, hr⟩ := exists_last hb
    rw [← List.cons_append, ← List.append_assoc, upToLast_split hr] at h
    have := congrArg List.length h
    simp at this
  · intro h
    rw [upToLast_split (List.count_eq_zero.1 (by omega))]

end Stack

/-! ### The rules of the database -/

/-- What an operation makes of the stack of the database. It fails to roll back to a name that is not on the stack. -/
def Control.onStack : Control → List String → Option (List String)
  | .begin, stack => some stack
  | .commit, _ | .rollback, _ => some []
  | .savepoint name, stack => some (stack ++ [name])
  | .rollbackTo name, stack => if name ∈ stack then some (upToLast name stack) else none

variable {ω κ : Type}

/-- An adapter is to a database that has on each connection a stack of savepoints. -/
structure SavepointRules (a : Adapter ω κ) (stack : κ → ω → List String) : Prop where
  /-- A command that succeeds does to the stack what it says. -/
  executed : ∀ (c : Control) k w w' cursor, (a.execute k c.sql []).run w = (.ok cursor, w') →
    c.onStack (stack k w) = some (stack k w')
  /-- The log has nothing to do with it. -/
  logged : ∀ k line w, stack k (a.log line w) = stack k w

/-- The savepoints that the database has on the connection of a session. -/
def held (stack : κ → ω → List String) (s : SessionState ω κ) : List String :=
  stack s.session.connection s.engine.database

/-- The session has all savepoints of the database, and rolls back to them only. -/
structure Mirrors (stack : κ → ω → List String) (s : SessionState ω κ) : Prop where
  tracked : s.session.savepoints = held stack s
  accepted : ∀ name, (Control.rollbackTo name).refusal? s.session = none ↔ name ∈ held stack s

/-- A state that a session can have if it was opened and not yet closed. -/
structure Consistent (stack : κ → ω → List String) (s : SessionState ω κ) : Prop where
  isOpen : s.session.phase ≠ .closed
  idle : s.session.phase = .idle → s.session.savepoints = []
  sublist : s.session.savepoints.Sublist (held stack s)

variable {e : Engine ω κ} {stack : κ → ω → List String} {s t : SessionState ω κ} {c : Control}

theorem Control.refusal?_rollbackTo (name : String) : (Control.rollbackTo name).refusal? s.session = none ↔
    s.session.phase = .active ∧ name ∈ s.session.savepoints := by
  cases h : s.session.phase <;> simp [refusal?, h]

theorem Consistent.mem_savepoints (h : Consistent stack s) (name : String) :
    (Control.rollbackTo name).refusal? s.session = none ↔ name ∈ s.session.savepoints := by
  rw [Control.refusal?_rollbackTo]
  refine ⟨And.right, fun hn => ⟨?_, hn⟩⟩
  cases hp : s.session.phase with
  | closed => exact absurd hp h.isOpen
  | idle =>
    rw [h.idle hp] at hn
    cases hn
  | active => rfl

theorem Consistent.mirrors_iff (h : Consistent stack s) :
    Mirrors stack s ↔ s.session.savepoints = held stack s :=
  ⟨Mirrors.tracked, fun he => ⟨he, fun name => by rw [h.mem_savepoints, he]⟩⟩

/-- What an operation that succeeds does to both. -/
theorem SavepointRules.step (hr : SavepointRules e.adapter stack) (h : (c.task e).run s = (.ok (), t)) :
    c.refusal? s.session = none ∧ t.session = c.effect s.session ∧
      c.onStack (held stack s) = some (held stack t) := by
  obtain ⟨hc, ht, cursor, w, hx, hd⟩ := Control.of_run_task_ok e h
  refine ⟨hc, ht, ?_⟩
  have hk : t.session.connection = s.session.connection := by
    rw [ht]
    cases c <;> rfl
  rw [held, held, hd, hr.logged, hk]
  exact hr.executed c _ _ _ _ hx

/-- The database may have savepoints that the session has forgotten, but never the other way round. -/
theorem Consistent.step (hr : SavepointRules e.adapter stack) (hs : Consistent stack s)
    (h : (c.task e).run s = (.ok (), t)) : Consistent stack t := by
  obtain ⟨hc, ht, hk⟩ := hr.step h
  have hsub := hs.sublist
  cases c with
  | begin =>
    rw [Option.some.inj hk] at hsub
    exact ⟨by simp [ht, Control.effect], by simp [ht, Control.effect], by simpa [ht, Control.effect] using hsub⟩
  | commit => exact ⟨by simp [ht, Control.effect], by simp [ht, Control.effect], by simp [ht, Control.effect]⟩
  | rollback => exact ⟨by simp [ht, Control.effect], by simp [ht, Control.effect], by simp [ht, Control.effect]⟩
  | savepoint name =>
    have hp : s.session.phase = .active := by
      cases hp : s.session.phase <;> simp [Control.refusal?, hp] at hc ⊢
    refine ⟨by simp [ht, Control.effect, hp], by simp [ht, Control.effect, hp], ?_⟩
    rw [← Option.some.inj hk, ht]
    exact hsub.append_right [name]
  | rollbackTo name =>
    obtain ⟨hp, hn⟩ := (Control.refusal?_rollbackTo name).1 hc
    refine ⟨by simp [ht, Control.effect, hp], by simp [ht, Control.effect, hp], ?_⟩
    rw [Control.onStack, if_pos (hsub.subset hn)] at hk
    rw [← Option.some.inj hk, ht]
    exact upTo_sublist_upToLast hsub hn

/-- Both stay equal, except when the session rolls back to a name that the database has more than once. -/
theorem Consistent.step_eq_iff (hr : SavepointRules e.adapter stack) (he : s.session.savepoints = held stack s)
    (h : (c.task e).run s = (.ok (), t)) :
    t.session.savepoints = held stack t ↔ ∀ name, c = .rollbackTo name → (held stack s).count name = 1 := by
  obtain ⟨hc, ht, hk⟩ := hr.step h
  cases c with
  | begin =>
    rw [← Option.some.inj hk, ht]
    simpa [Control.effect] using he
  | commit =>
    rw [← Option.some.inj hk, ht]
    simp [Control.effect]
  | rollback =>
    rw [← Option.some.inj hk, ht]
    simp [Control.effect]
  | savepoint name =>
    rw [← Option.some.inj hk, ht]
    simpa [Control.effect] using he
  | rollbackTo name =>
    have hn : name ∈ held stack s := he ▸ ((Control.refusal?_rollbackTo name).1 hc).2
    rw [Control.onStack, if_pos hn] at hk
    rw [← Option.some.inj hk, ht, Control.effect, he]
    refine (upTo_eq_upToLast_iff hn).trans ⟨?_, fun hall => hall name rfl⟩
    rintro h1 _ ⟨⟩
    exact h1

/-! ### Runs -/

/-- The operations succeed, one after the other. -/
def Performs (e : Engine ω κ) (s : SessionState ω κ) (cs : List Control) (t : SessionState ω κ) : Prop :=
  (cs.forM fun c => c.task e).run s = (.ok (), t)

variable {cs : List Control}

theorem performs_nil : Performs e s [] t ↔ t = s := by
  constructor
  · rintro ⟨⟩
    rfl
  · rintro rfl
    rfl

theorem performs_cons_of_ok {m : SessionState ω κ} (hc : (c.task e).run s = (.ok (), m)) :
    Performs e s (c :: cs) t ↔ Performs e m cs t := by
  have hrun : (List.forM (c :: cs) fun c => c.task e).run s = (cs.forM fun c => c.task e).run m :=
    Task.run_bind_of_ok hc
  rw [Performs, hrun, Performs]

theorem Performs.of_cons (h : Performs e s (c :: cs) t) : ∃ m, (c.task e).run s = (.ok (), m) ∧ Performs e m cs t := by
  cases hx : (c.task e).run s with
  | mk outcome m =>
    cases outcome with
    | error failure =>
      have hrun : (List.forM (c :: cs) fun c => c.task e).run s = (.error failure, m) := Task.run_bind_of_error hx
      rw [Performs, hrun] at h
      cases h
    | ok u => exact ⟨m, rfl, (performs_cons_of_ok hx).1 h⟩

/-- The states of a run are those that a session can have. -/
theorem Consistent.performs (hr : SavepointRules e.adapter stack) (hs : Consistent stack s)
    (h : Performs e s cs t) : Consistent stack t := by
  induction cs generalizing s with
  | nil =>
    obtain rfl := performs_nil.1 h
    exact hs
  | cons c cs ih =>
    obtain ⟨m, hc, h⟩ := h.of_cons
    exact ih (hs.step hr hc) h

/-- The condition for a whole run, from any state in which both agree. -/
theorem tracked_along_iff (hr : SavepointRules e.adapter stack) (he : s.session.savepoints = held stack s)
    (h : Performs e s cs t) :
    (∀ before m, before <+: cs → Performs e s before m → m.session.savepoints = held stack m) ↔
      ∀ before name m, before ++ [.rollbackTo name] <+: cs → Performs e s before m →
        (held stack m).count name = 1 := by
  induction cs generalizing s with
  | nil =>
    constructor
    · intro _ before name m hb
      exact absurd (List.prefix_nil.1 hb) (by simp)
    · rintro _ before m hb hm
      rw [List.prefix_nil.1 hb, performs_nil] at hm
      rw [hm, he]
  | cons c cs ih =>
    obtain ⟨n, hc, hn⟩ := h.of_cons
    have hstep := Consistent.step_eq_iff hr he hc
    constructor
    · intro hall
      have hen : n.session.savepoints = held stack n :=
        hall [c] n (by simp) ((performs_cons_of_ok hc).2 (performs_nil.2 rfl))
      have htail := (ih hen hn).1 fun before m hb hm =>
        hall (c :: before) m (List.cons_prefix_cons.2 ⟨rfl, hb⟩) ((performs_cons_of_ok hc).2 hm)
      intro before name m hb hm
      cases before with
      | nil =>
        obtain rfl := performs_nil.1 hm
        exact hstep.1 hen name (List.cons_prefix_cons.1 hb).1.symm
      | cons b before =>
        obtain ⟨rfl, hb'⟩ := List.cons_prefix_cons.1 hb
        exact htail before name m hb' ((performs_cons_of_ok hc).1 hm)
    · intro hall
      have hen : n.session.savepoints = held stack n :=
        hstep.2 fun name hname => hall [] name s (by simp [hname]) (performs_nil.2 rfl)
      have htail := (ih hen hn).2 fun before name m hb hm =>
        hall (c :: before) name m (List.cons_prefix_cons.2 ⟨rfl, hb⟩) ((performs_cons_of_ok hc).2 hm)
      intro before m hb hm
      cases before with
      | nil =>
        obtain rfl := performs_nil.1 hm
        exact he
      | cons b before =>
        obtain ⟨rfl, hb'⟩ := List.cons_prefix_cons.1 hb
        exact htail before m hb' ((performs_cons_of_ok hc).1 hm)

/-- A session that was just opened, on a connection without savepoints. -/
structure Fresh (stack : κ → ω → List String) (s : SessionState ω κ) : Prop where
  idle : s.session.phase = .idle
  tracked : s.session.savepoints = []
  held : held stack s = []

theorem Fresh.consistent (h : Fresh stack s) : Consistent stack s :=
  ⟨by simp [h.idle], fun _ => h.tracked, by simp [h.tracked]⟩

/-! ### A database with savepoints -/

/-- Takes doubled quotes back. -/
def undouble : List Char → List Char
  | [] => []
  | [c] => [c]
  | c :: d :: cs => if c = '\x22' then c :: undouble cs else c :: undouble (d :: cs)

theorem undouble_cons {c : Char} (hc : c ≠ '\x22') (cs : List Char) : undouble (c :: cs) = c :: undouble cs := by
  cases cs with
  | nil => rfl
  | cons d cs => rw [undouble, if_neg hc]

theorem undouble_doubleQuotes (cs : List Char) : undouble (doubleQuotes cs) = cs := by
  induction cs with
  | nil => rfl
  | cons c cs ih =>
    rw [doubleQuotes, List.flatMap_cons, ← doubleQuotes]
    by_cases hc : c = '\x22'
    · rw [if_pos hc, hc, List.cons_append, List.cons_append, List.nil_append, undouble, if_pos rfl, ih]
    · rw [if_neg hc, List.singleton_append, undouble_cons hc, ih]

/-- The name in a quoted name. -/
def unquote (cs : List Char) : String := String.ofList (undouble cs.tail.dropLast)

theorem unquote_quoteName (name : String) : unquote (quoteName name).toList = name := by
  rw [unquote, quoteName, String.toList_ofList, List.tail_cons, List.dropLast_concat, undouble_doubleQuotes,
    String.ofList_toList]

/-- The operation that a command is sent by. -/
def Control.ofSql? (sql : String) : Option Control :=
  let cs := sql.toList
  if sql = "BEGIN" then some .begin
  else if sql = "COMMIT" then some .commit
  else if sql = "ROLLBACK" then some .rollback
  else if "SAVEPOINT ".toList <+: cs then some (.savepoint (unquote (cs.drop 10)))
  else if "ROLLBACK TO SAVEPOINT ".toList <+: cs then some (.rollbackTo (unquote (cs.drop 22)))
  else none

/-- A text with a beginning that is longer than a word is not this word. -/
theorem append_ne_of_length_lt {beginning word : String} (h : word.toList.length < beginning.toList.length)
    (rest : String) : beginning ++ rest ≠ word := by
  rintro rfl
  rw [String.toList_append, List.length_append] at h
  omega

theorem Control.ofSql?_sql (c : Control) : ofSql? c.sql = some c := by
  cases c with
  | begin =>
    show ofSql? "BEGIN" = _
    rw [ofSql?, if_pos rfl]
  | commit =>
    show ofSql? "COMMIT" = _
    rw [ofSql?, if_neg (by decide), if_pos rfl]
  | rollback =>
    show ofSql? "ROLLBACK" = _
    rw [ofSql?, if_neg (by decide), if_neg (by decide), if_pos rfl]
  | savepoint name =>
    show ofSql? ("SAVEPOINT " ++ quoteName name) = _
    rw [ofSql?, if_neg (append_ne_of_length_lt (by decide) _), if_neg (append_ne_of_length_lt (by decide) _),
      if_neg (append_ne_of_length_lt (by decide) _), String.toList_append, if_pos (List.prefix_append _ _)]
    exact congrArg (some ∘ Control.savepoint) (unquote_quoteName name)
  | rollbackTo name =>
    have hno : ¬ "SAVEPOINT ".toList <+: "ROLLBACK TO SAVEPOINT ".toList ++ (quoteName name).toList := by
      intro h
      have := h.head (by decide)
      simp at this
    show ofSql? ("ROLLBACK TO SAVEPOINT " ++ quoteName name) = _
    rw [ofSql?, if_neg (append_ne_of_length_lt (by decide) _), if_neg (append_ne_of_length_lt (by decide) _),
      if_neg (append_ne_of_length_lt (by decide) _), String.toList_append, if_neg hno, if_pos (List.prefix_append _ _)]
    exact congrArg (some ∘ Control.rollbackTo) (unquote_quoteName name)

/-- A database with one connection that keeps savepoints by the rules, and knows nothing else. -/
def ledger : Adapter (List String) Unit where
  style := "qmark"
  openAll _ := pure [()]
  execute _ sql _ := fun stack =>
    match (Control.ofSql? sql).bind (·.onStack stack) with
    | some stack' => (.ok .silent, stack')
    | none => (.error (.driver ⟨"SQLITE_ERROR", "no such savepoint", none, none, true⟩), stack)
  commit _ := fun _ => (.ok (), [])
  rollback _ := fun _ => (.ok (), [])
  close _ := pure ()
  describe _ := none
  log _ stack := stack

theorem ledger_execute (c : Control) (held : List String) :
    (ledger.execute () c.sql []).run held = match c.onStack held with
      | some stack => (.ok .silent, stack)
      | none => (.error (.driver ⟨"SQLITE_ERROR", "no such savepoint", none, none, true⟩), held) := by
  show (match (Control.ofSql? c.sql).bind (·.onStack held) with
    | some stack => _
    | none => _ : Except Failure Cursor × List String) = _
  rw [Control.ofSql?_sql, Option.bind_some]
  rfl

theorem ledger_rules : SavepointRules ledger fun _ held => held where
  executed c _ held held' cursor h := by
    rw [ledger_execute] at h
    cases hc : c.onStack held with
    | none =>
      rw [hc] at h
      cases h
    | some stack =>
      rw [hc] at h
      cases h
      rfl
  logged _ _ _ := rfl

/-- An engine on it. -/
def ledgerEngine : Engine (List String) Unit :=
  ⟨⟨"sqlite", none, none, none, none, ":memory:", .integer 1, .integer 30, 1800, false, []⟩, ledger⟩

/-- A session on it. -/
def ledgerSession (phase : Phase) (tracked held : List String) : SessionState (List String) Unit :=
  ⟨⟨(), phase, tracked⟩, ⟨some [], held⟩⟩

theorem ledger_performs {s t : SessionState (List String) Unit} {held' : List String} {c : Control} {cs : List Control}
    (hc : c.refusal? s.session = none) (hk : c.onStack s.engine.database = some held') :
    Performs ledgerEngine s (c :: cs) t ↔
      Performs ledgerEngine ⟨c.effect s.session, ⟨s.engine.pool, held'⟩⟩ cs t := by
  refine performs_cons_of_ok ?_
  have hx : (ledgerEngine.adapter.execute s.session.connection c.sql []).run s.engine.database = (.ok .silent, held') :=
    (ledger_execute c _).trans (by rw [hk])
  rw [Control.run_task, hc, hx]
  rfl

/-- With a name that is set again, the session has forgotten a savepoint after the rollback to it. -/
theorem ledger_performs_repeated : Performs ledgerEngine (ledgerSession .idle [] [])
    [.begin, .savepoint "a", .savepoint "b", .savepoint "a", .rollbackTo "a"]
    (ledgerSession .active ["a"] ["a", "b", "a"]) := by
  repeat rw [ledger_performs (by decide) (by rfl)]
  exact performs_nil.2 rfl

/-! ### What a session knows -/

/-- Whatever operations succeed, the session knows no savepoint that the database does not have. It knows them all, at
every point, exactly if each rollback to a savepoint was to a name that the database had once. -/
theorem mirrors_along_iff (hr : SavepointRules e.adapter stack) (hs : Fresh stack s) (h : Performs e s cs t) :
    (∀ before m, before <+: cs → Performs e s before m → m.session.savepoints.Sublist (held stack m)) ∧
    ((∀ before m, before <+: cs → Performs e s before m → Mirrors stack m) ↔
      ∀ before name m, before ++ [.rollbackTo name] <+: cs → Performs e s before m →
        (held stack m).count name = 1) := by
  refine ⟨fun before m _ hm => (hs.consistent.performs hr hm).sublist, ?_⟩
  rw [← tracked_along_iff hr (hs.tracked.trans hs.held.symm) h]
  constructor
  · intro hall before m hb hm
    exact (hall before m hb hm).tracked
  · intro hall before m hb hm
    exact (hs.consistent.performs hr hm).mirrors_iff.2 (hall before m hb hm)

/-- With a name set twice the condition is not met, so that somewhere in the run the session has lost track. -/
theorem not_mirrors_along_repeated :
    SavepointRules ledgerEngine.adapter (fun _ held => held) ∧ Fresh (fun _ held => held) (ledgerSession .idle [] []) ∧
    ¬ ∀ before m, before <+: [.begin, .savepoint "a", .savepoint "b", .savepoint "a", .rollbackTo "a"] →
      Performs ledgerEngine (ledgerSession .idle [] []) before m → Mirrors (fun _ held => held) m := by
  have hs : Fresh (fun _ held => held) (ledgerSession .idle [] []) := ⟨rfl, rfl, rfl⟩
  refine ⟨ledger_rules, hs, fun hall => ?_⟩
  have hcount := (mirrors_along_iff ledger_rules hs ledger_performs_repeated).2.1 hall
    [.begin, .savepoint "a", .savepoint "b", .savepoint "a"] "a" (ledgerSession .active ["a", "b", "a"] ["a", "b", "a"])
    (List.prefix_refl _) (by
      repeat rw [ledger_performs (by decide) (by rfl)]
      exact performs_nil.2 rfl)
  exact absurd hcount (by decide)

/-- A rollback to a savepoint that the database has is refused. -/
theorem rollbackTo_refused_repeated :
    Performs ledgerEngine (ledgerSession .idle [] [])
      [.begin, .savepoint "a", .savepoint "b", .savepoint "a", .rollbackTo "a"]
      (ledgerSession .active ["a"] ["a", "b", "a"]) ∧
    "b" ∈ held (fun _ held => held) (ledgerSession .active ["a"] ["a", "b", "a"]) ∧
    (rollbackTo ledgerEngine "b").run (ledgerSession .active ["a"] ["a", "b", "a"]) =
      (.error (.transactionState "active" "roll back to unknown savepoint 'b'"),
        ledgerSession .active ["a"] ["a", "b", "a"]) :=
  ⟨ledger_performs_repeated, by decide, Control.run_task ledgerEngine _ (.rollbackTo "b")⟩

end RecordSql.Session
