import RecordSql.Proofs.Relation.Groups
import RecordSql.Proofs.Value.Fields
import RecordSql.Proofs.Sql.Clauses
import RecordSql.Proofs.Task

/-!
# Loading a relation in a batch

A relation is loaded by one statement, or by none if no parent has a key. What the parents get is what going through
all replies would give to each of them.
-/

namespace RecordSql

/-- A statement that was run, and what came of it. -/
structure Call where
  statement : Statement
  outcome : Except Failure (List Row)

/-- The connector with a list of its calls. -/
def Connector.traced {σ : Type} (c : Connector σ) : Connector (σ × List Call) where
  run statement := fun (s, calls) =>
    let (outcome, s') := (c.run statement).run s
    (outcome, s', calls ++ [⟨statement, outcome⟩])
  log line := fun (s, calls) => (c.log line s, calls)

theorem Connector.run_traced {σ : Type} (c : Connector σ) (statement : Statement) (s : σ) (calls : List Call) :
    (c.traced.run statement).run (s, calls) =
      (((c.run statement).run s).1, ((c.run statement).run s).2,
        calls ++ [⟨statement, ((c.run statement).run s).1⟩]) := rfl

namespace Relation

variable {σ : Type} {c : Connector σ} {r : Relation} {records : List Value} {rows replies : List Row}
  {keys : List Value}

/-! ### The statement -/

theorem markFree_batchKey (r : Relation) : MarkFree r.batchKey := by
  rw [batchKey]
  split <;> exact markFree_qualify _ _

theorem balanced_batchJoin (r : Relation) : ∀ f ∈ r.batchJoin, f.Balanced := by
  intro f hf
  rw [batchJoin] at hf
  split at hf
  · obtain rfl := Option.some.inj hf
    have h1 : MarkFree ("INNER JOIN " ++ quoteName (r.pivot.table.getD "") ++ " AS " ++ quoteName pivotAlias) :=
      ((MarkFree.append (by decide) (markFree_quoteName _)).append (by decide)).append (markFree_quoteName _)
    exact Fragment.balanced_plain.2
      ((((h1.append (by decide)).append (markFree_qualify _ _)).append (by decide)).append (markFree_qualify _ _))
  · cases hf

theorem clauseParams_batchJoin (r : Relation) : clauseParams r.batchJoin = [] := by
  rw [batchJoin]
  cases r.route <;> rfl

/-- What a batch selects. -/
def batchColumns (r : Relation) : String :=
  quoteName r.target.name ++ ".*, " ++ r.batchKey ++ " AS " ++ quoteName relationKey

theorem markFree_batchColumns (r : Relation) : MarkFree r.batchColumns :=
  ((((markFree_quoteName _).append (by decide)).append (markFree_batchKey r)).append (by decide)).append
    (markFree_quoteName _)

/-- The statement for keys that can be bound. -/
theorem batchStatement_eq {ps : List Param} (hne : keys ≠ []) (h : Param.ofValues keys = .ok ps) :
    r.batchStatement keys = .ok
      ⟨"SELECT " ++ r.batchColumns ++ " FROM " ++ quoteName r.target.name ++ clauseText " " 1 r.batchJoin
          ++ " WHERE " ++ r.batchKey ++ " IN (" ++ numbered 1 (marks keys.length) ++ ");", ps⟩ := by
  have hkey : MarkFree (r.batchKey ++ " IN (") := (markFree_batchKey r).append (by decide)
  obtain ⟨filter, hf, hb, rfl⟩ := Condition.member_ok (markFree_batchKey r) hne h
  obtain ⟨htext, -⟩ := Condition.member_eq_ok hf
  have hnumbered : numbered 1 filter.text = r.batchKey ++ " IN (" ++ numbered 1 (marks keys.length) ++ ")" := by
    have hmarks : Closed (marks keys.length) := by
      rw [← Param.length_ofValues h]
      exact (Fragment.balanced_marks filter.params).1
    have hend : MarkFree ")" := by decide
    rw [htext, numbered_append (hkey.1.append hmarks), numbered_append hkey.1, hkey.numbered_eq, hkey.2,
      hend.numbered_eq]
    rfl
  rw [batchStatement, hf, Outcome.ok_bind]
  have hparams : clauseParams (some (Fragment.plain r.batchColumns)) = [] := rfl
  have hcolumns : ∀ f ∈ some (Fragment.plain r.batchColumns), f.Balanced := by
    simpa using Fragment.balanced_plain.2 (markFree_batchColumns r)
  have hfilter : ∀ f ∈ some filter, f.Balanced := by simpa using hb
  have hs := selectStatement_of_balanced r.target.name hcolumns (balanced_batchJoin r) hfilter
    (fun t ht => absurd ht List.not_mem_nil) (fun f hf => absurd hf List.not_mem_nil)
  refine hs.trans ?_
  rw [hparams, clauseParams_batchJoin, Except.ok.injEq, Statement.mk.injEq]
  refine ⟨?_, rfl⟩
  simp [(markFree_batchColumns r).numbered_eq, clauseText, joinsText, hnumbered, String.append_assoc]

/-- There is a statement for keys that can be bound, and its parameters are the keys. -/
theorem batchStatement_of_supported {ps : List Param} (hne : keys ≠ []) (h : Param.ofValues keys = .ok ps) :
    ∃ statement, r.batchStatement keys = .ok statement ∧ statement.params = ps :=
  ⟨_, batchStatement_eq hne h, rfl⟩

/-- A statement binds its keys. -/
theorem params_batchStatement {statement : Statement} (hne : keys ≠ []) (h : r.batchStatement keys = .ok statement) :
    Param.ofValues keys = .ok statement.params := by
  rw [batchStatement] at h
  obtain ⟨filter, hf, -⟩ := Outcome.bind_eq_ok.1 h
  obtain ⟨ps, hps, -⟩ := Outcome.bind_eq_ok.1 hf
  obtain ⟨statement', hs, rfl⟩ := batchStatement_of_supported (r := r) hne hps
  rw [batchStatement] at hs
  obtain rfl := Except.ok.inj (h.symm.trans hs)
  exact hps

/-! ### Fetching -/

/-- What a batch says in the log. -/
def batchLine (r : Relation) (keys : List Value) : LogLine :=
  ⟨.debug, "loading " ++ r.source.name ++ "." ++ r.field ++ " for " ++ toString keys.length ++ " keys"⟩

/-- What is sent for keys, and what becomes of the replies. -/
def exchange (c : Connector σ) (r : Relation) (keys : List Value) : Task σ Groups := do
  let statement ← Task.ofExcept (r.batchStatement keys)
  c.note (r.batchLine keys)
  let replies ← c.run statement
  Task.ofExcept (replies.foldlM r.addToGroup [])

theorem run_fetch_of_error {e : Failure} (h : r.collectKeys rows = .error e) (s : σ) :
    (r.fetch c rows).run s = (.error e, s) := by
  rw [fetch, h]
  rfl

theorem run_fetch_of_nil (h : r.collectKeys rows = .ok []) (s : σ) : (r.fetch c rows).run s = (.ok [], s) := by
  rw [fetch, h]
  rfl

theorem run_fetch_of_keys (h : r.collectKeys rows = .ok keys) (hne : keys ≠ []) (s : σ) :
    (r.fetch c rows).run s = (exchange c r keys).run s := by
  rw [fetch, h]
  cases keys with
  | nil => exact absurd rfl hne
  | cons key keys => rfl

theorem exchange_eq_ok {groups : Groups} {s s' : σ} : (exchange c r keys).run s = (.ok groups, s') ↔
    ∃ statement replies, r.batchStatement keys = .ok statement ∧
      (c.run statement).run (c.log (r.batchLine keys) s) = (.ok replies, s') ∧
      replies.foldlM r.addToGroup [] = .ok groups := by
  have hnote : (c.note (r.batchLine keys)).run s = (.ok (), c.log (r.batchLine keys) s) := rfl
  simp only [exchange, Task.run_bind_eq_ok, Task.run_ofExcept_eq_ok]
  constructor
  · rintro ⟨statement, _, ⟨hb, rfl⟩, _, _, hn, replies, _, hr, hg, rfl⟩
    cases hnote.symm.trans hn
    exact ⟨statement, replies, hb, hr, hg⟩
  · rintro ⟨statement, replies, hb, hr, hg⟩
    exact ⟨statement, s, ⟨hb, rfl⟩, (), _, hnote, replies, s', hr, hg, rfl⟩

/-- Fetching succeeds without keys, or by one statement whose replies can be grouped. -/
theorem fetch_eq_ok {groups : Groups} {s s' : σ} : (r.fetch c rows).run s = (.ok groups, s') ↔
    ∃ keys, r.collectKeys rows = .ok keys ∧
      (keys = [] ∧ groups = [] ∧ s' = s ∨
        keys ≠ [] ∧ ∃ statement replies, r.batchStatement keys = .ok statement ∧
          (c.run statement).run (c.log (r.batchLine keys) s) = (.ok replies, s') ∧
          replies.foldlM r.addToGroup [] = .ok groups) := by
  constructor
  · intro h
    cases hk : r.collectKeys rows with
    | error e =>
      rw [run_fetch_of_error hk] at h
      cases h
    | ok keys =>
      refine ⟨keys, rfl, ?_⟩
      by_cases hne : keys = []
      · subst hne
        rw [run_fetch_of_nil hk] at h
        cases h
        exact .inl ⟨rfl, rfl, rfl⟩
      · rw [run_fetch_of_keys hk hne] at h
        exact .inr ⟨hne, exchange_eq_ok.1 h⟩
  · rintro ⟨keys, hk, ⟨rfl, rfl, rfl⟩ | ⟨hne, h⟩⟩
    · exact run_fetch_of_nil hk s'
    · rw [run_fetch_of_keys hk hne]
      exact exchange_eq_ok.2 h

/-- The replies that a parent row is related to, found by going through all of them. -/
def repliesTo (r : Relation) (replies : List Row) (row : Row) : List Row :=
  replies.filter fun reply => (reply.get? relationKey).any (·.eqv (r.parentValue row))

/-- The related records of a parent row. -/
def matching (r : Relation) (replies : List Row) (row : Row) : Except Failure (List Value) :=
  (r.repliesTo replies row).mapM fun reply => r.target.plan.run reply.base

/-- What the field of a parent holds: all related records, or the first. -/
def holding (r : Relation) (related : List Value) : Value :=
  match r.reach with
  | .many => .list related
  | .one => related.head?.getD .null

/-- Loading by going through all replies for each parent. -/
def nested (r : Relation) (replies : List Row) (records : List Value) (rows : List Row) : Except Failure (List Value) :=
  (records.zip rows).mapM fun (record, row) => do record.assign r.field (r.holding (← r.matching replies row))

theorem matching_eq_ok {entries : List (Value × Value)} (h : replies.mapM r.entry = .ok entries) (row : Row) :
    r.matching replies row = .ok ((entries.filter fun e => e.1.eqv (r.parentValue row)).map (·.2)) := by
  rw [Outcome.mapM_eq_ok] at h
  induction h with
  | nil => rfl
  | @cons reply e replies entries he _ ih =>
    obtain ⟨hk, -, hv⟩ := entry_eq_ok.1 he
    rw [matching, repliesTo] at ih ⊢
    rw [List.filter_cons, List.filter_cons, hk, Option.any_some]
    by_cases hp : e.1.eqv (r.parentValue row)
    · rw [if_pos hp, if_pos hp, Outcome.mapM_cons, hv, ih]
      rfl
    · rw [if_neg hp, if_neg hp, ih]

/-- Looking up the groups of the replies is going through them. -/
theorem matching_of_groups {groups : Groups} {row : Row} (h : replies.foldlM r.addToGroup [] = .ok groups)
    (hp : (r.parentValue row).checkKey = .ok ()) :
    r.matching replies row = .ok (groups.get (r.parentValue row)) := by
  rw [foldlM_addToGroup, Outcome.map_eq_ok] at h
  obtain ⟨entries, he, rfl⟩ := h
  have hk : ∀ e ∈ entries, e.1.checkKey = .ok () := by
    intro e hm
    obtain ⟨reply, -, hr⟩ := Outcome.of_mem_of_mapM_eq_ok he hm
    exact (entry_eq_ok.1 hr).2.1
  rw [matching_eq_ok he, Groups.get_foldl_add (by simp) hk hp]
  rfl

/-! ### Attaching -/

/-- Attaching succeeds if there are as many records as rows and each takes its field. -/
theorem attach_eq_ok {groups : Groups} {records' : List Value} : r.attach groups records rows = ⟨records', none⟩ ↔
    records.length = rows.length ∧
      (records.zip rows).mapM (fun p => p.1.assign r.field (r.attached groups p.2)) = .ok records' := by
  induction records generalizing rows records' with
  | nil => cases rows <;> simp [attach, eq_comm]
  | cons record records ih =>
    cases rows with
    | nil => simp [attach]
    | cons row rows =>
      rw [attach, List.zip_cons_cons, Outcome.mapM_cons, List.length_cons, List.length_cons, Nat.add_right_cancel_iff]
      cases hr : record.assign r.field (r.attached groups row) with
      | error e => simp
      | ok record' =>
        simp only [Outcome.ok_bind, Outcome.map_eq_ok, Touched.mk.injEq]
        constructor
        · rintro ⟨rfl, hf⟩
          obtain ⟨hl, hm⟩ := ih.1 (show r.attach groups records rows = ⟨_, none⟩ by rw [← hf])
          exact ⟨hl, _, hm, rfl⟩
        · rintro ⟨hl, records', hm, rfl⟩
          rw [ih.2 ⟨hl, hm⟩]
          exact ⟨rfl, rfl⟩

theorem run_load_of_ok {groups : Groups} {s t : σ} (h : (r.fetch c rows).run s = (.ok groups, t)) :
    (r.load c records rows).run s = (r.attach groups records rows, t) := by
  rw [load, StateT.run_bind, show StateT.run (ExceptT.run (r.fetch c rows)) s = (.ok groups, t) from h]
  rfl

/-- If nothing was fetched, nothing is attached. -/
theorem run_load_of_error {e : Failure} {s t : σ} (h : (r.fetch c rows).run s = (.error e, t)) :
    (r.load c records rows).run s = (⟨records, some e⟩, t) := by
  rw [load, StateT.run_bind, show StateT.run (ExceptT.run (r.fetch c rows)) s = (.error e, t) from h]
  rfl

/-- Loading succeeds if fetching and attaching do. -/
theorem load_eq_ok {records' : List Value} {s s' : σ} : (r.load c records rows).run s = (⟨records', none⟩, s') ↔
    ∃ groups, (r.fetch c rows).run s = (.ok groups, s') ∧ r.attach groups records rows = ⟨records', none⟩ := by
  constructor
  · intro h
    cases hf : (r.fetch c rows).run s with
    | mk outcome t =>
      cases outcome with
      | error e =>
        rw [run_load_of_error hf] at h
        cases h
      | ok groups =>
        rw [run_load_of_ok hf] at h
        obtain ⟨ha, rfl⟩ := Prod.mk.inj h
        exact ⟨groups, rfl, ha⟩
  · rintro ⟨groups, hf, ha⟩
    rw [run_load_of_ok hf, ha]

/-- A parent without a key has no related records if all replies are for the keys that were asked for. -/
theorem matching_of_isNull {entries : List (Value × Value)} {row : Row} (hk : r.collectKeys rows = .ok keys)
    (he : replies.mapM r.entry = .ok entries) (hn : (r.parentValue row).isNull)
    (h : ∀ reply ∈ replies, ∃ key ∈ keys, (reply.get? relationKey).any (key.eqv ·)) :
    r.matching replies row = .ok [] := by
  obtain ⟨hkeys, rfl⟩ := collectKeys_eq_ok.1 hk
  rw [matching_eq_ok he]
  have hnone : ∀ e ∈ entries, ¬ e.1.eqv (r.parentValue row) := by
    intro e hm heq
    obtain ⟨reply, hr, hre⟩ := Outcome.of_mem_of_mapM_eq_ok he hm
    obtain ⟨hget, hke, -⟩ := entry_eq_ok.1 hre
    obtain ⟨key, hkey, hany⟩ := h reply hr
    rw [hget, Option.any_some] at hany
    have hlead := (distinct_sublist _).subset hkey
    rw [Value.isNull_iff.1 hn] at heq
    have h0 := (Value.eqv_null_iff (hkeys key hlead)).1 (Value.eqv_trans (hkeys key hlead) hke hany heq)
    rw [h0] at hlead
    cases isNull_of_mem_leads hlead
  rw [List.filter_eq_nil_iff.2 hnone]
  rfl

theorem checkKey_parentValue (hk : r.collectKeys rows = .ok keys) {row : Row} (hr : row ∈ rows) :
    (r.parentValue row).checkKey = .ok () := by
  cases hn : (r.parentValue row).isNull with
  | true => exact Value.isNull_iff.1 hn ▸ rfl
  | false => exact (collectKeys_eq_ok.1 hk).1 _ (List.mem_filter.2 ⟨List.mem_map_of_mem hr, by simp [hn]⟩)

/-- Attaching groups of replies is loading by going through them. -/
theorem nested_of_groups {groups : Groups} (hk : r.collectKeys rows = .ok keys)
    (hg : replies.foldlM r.addToGroup [] = .ok groups) :
    r.nested replies records rows = (records.zip rows).mapM fun p => p.1.assign r.field (r.attached groups p.2) := by
  refine Outcome.mapM_congr fun p hp => ?_
  obtain ⟨record, row⟩ := p
  have hrow := checkKey_parentValue hk (List.of_mem_zip hp).2
  show (r.matching replies row >>= fun related => record.assign r.field (r.holding related)) = _
  rw [matching_of_groups hg hrow]
  rfl

/-- Loading gives every parent what going through all replies gives to it. The keys that are asked for are the values of
the parents without nulls and repetitions; there is one call if there is a key, and none else. -/
theorem load_eq_nested {records' : List Value} {s s' : σ}
    (h : (r.load c records rows).run s = (⟨records', none⟩, s')) :
    r.collectKeys rows = .ok (distinct (r.leads rows)) ∧ ∃ replies calls,
      (r.load c.traced records rows).run (s, []) = (⟨records', none⟩, s', calls) ∧
      (if (distinct (r.leads rows)).isEmpty then calls = [] ∧ replies = []
        else ∃ statement, r.batchStatement (distinct (r.leads rows)) = .ok statement ∧
          Param.ofValues (distinct (r.leads rows)) = .ok statement.params ∧ calls = [⟨statement, .ok replies⟩]) ∧
      r.nested replies records rows = .ok records' ∧
      (∀ record row record', ((record, row), record') ∈ (records.zip rows).zip records' → record.keepsFields →
        ∃ related, r.matching replies row = .ok related ∧ record'.fieldOf? r.field = some (r.holding related)) ∧
      ((∀ reply ∈ replies, ∃ key ∈ distinct (r.leads rows), (reply.get? relationKey).any (key.eqv ·)) →
        ∀ row ∈ rows, (r.parentValue row).isNull → r.matching replies row = .ok []) := by
  obtain ⟨groups, hf, ha⟩ := load_eq_ok.1 h
  obtain ⟨keys, hk, hfetch⟩ := fetch_eq_ok.1 hf
  obtain ⟨hkeys, rfl⟩ := collectKeys_eq_ok.1 hk
  obtain ⟨hl, hm⟩ := attach_eq_ok.1 ha
  have hend : ∀ replies, replies.foldlM r.addToGroup [] = .ok groups →
      r.nested replies records rows = .ok records' ∧
      (∀ record row record', ((record, row), record') ∈ (records.zip rows).zip records' → record.keepsFields →
        ∃ related, r.matching replies row = .ok related ∧ record'.fieldOf? r.field = some (r.holding related)) ∧
      ((∀ reply ∈ replies, ∃ key ∈ distinct (r.leads rows), (reply.get? relationKey).any (key.eqv ·)) →
        ∀ row ∈ rows, (r.parentValue row).isNull → r.matching replies row = .ok []) := by
    intro replies hg
    refine ⟨by rw [nested_of_groups hk hg, hm], ?_, ?_⟩
    · intro record row record' hmem hkeeps
      have hassign := (List.forall₂_iff_zip.1 (Outcome.mapM_eq_ok.1 hm)).2 hmem
      have hrow := checkKey_parentValue hk (List.of_mem_zip (List.of_mem_zip hmem).1).2
      exact ⟨_, matching_of_groups hg hrow, Value.fieldOf?_assign hassign hkeeps⟩
    · intro hall row _ hn
      rw [foldlM_addToGroup, Outcome.map_eq_ok] at hg
      obtain ⟨entries, he, -⟩ := hg
      exact matching_of_isNull hk he hn hall
  refine ⟨hk, ?_⟩
  rcases hfetch with ⟨hnil, rfl, rfl⟩ | ⟨hne, statement, replies, hb, hr, hg⟩
  · refine ⟨[], [], ?_, ?_, hend [] rfl⟩
    · exact load_eq_ok.2 ⟨[], fetch_eq_ok.2 ⟨_, hk, .inl ⟨hnil, rfl, rfl⟩⟩, ha⟩
    · rw [if_pos (by rw [hnil]; rfl)]
      exact ⟨rfl, rfl⟩
  · refine ⟨replies, [⟨statement, .ok replies⟩], ?_, ?_, hend replies hg⟩
    · have htraced : (c.traced.run statement).run (c.traced.log (r.batchLine (distinct (r.leads rows))) (s, [])) =
          (.ok replies, s', [⟨statement, .ok replies⟩]) :=
        (Connector.run_traced c statement _ []).trans (by rw [hr]; rfl)
      exact load_eq_ok.2 ⟨groups, fetch_eq_ok.2 ⟨_, hk, .inr ⟨hne, statement, replies, hb, htraced, hg⟩⟩, ha⟩
    · rw [if_neg (by simpa using hne)]
      exact ⟨statement, hb, params_batchStatement hne hb, rfl⟩

/-- A connector with one answer to all statements. -/
def answering (replies : List Row) : Connector Unit := ⟨fun _ => pure replies, fun _ s => s⟩

/-- The posts of users. -/
def postsOfUsers : Relation where
  field := "posts"
  reach := .many
  route := .reverse
  source := ⟨"users", ["id"], ["id"], ["id"], .copy, none⟩
  target := ⟨"posts", ["id"], ["id", "user"], ["id"], .copy, none⟩
  foreignKey := "user"
  modelKey := "id"
  pivot := ⟨none, none, none⟩

def userRows : List Row := [[("id", .integer 1)], [("id", .null)]]

def userRecords : List Value := [.dict none [(.text "id", .integer 1)], .dict none []]

def postReplies : List Row := [[("id", .integer 7), ("user", .integer 1), (relationKey, .truth true)]]

def usersWithPosts : List Value :=
  [.dict none [(.text "id", .integer 1),
    (.text "posts", .list [.dict none [(.text "id", .integer 7), (.text "user", .integer 1)]])],
   .dict none [(.text "posts", .list [])]]

/-- A key is found under an equal one of another type, and a user without a key has no posts. -/
theorem load_eq_nested_posts :
    (postsOfUsers.load (answering postReplies) userRecords userRows).run () = (⟨usersWithPosts, none⟩, ()) ∧
    postsOfUsers.nested postReplies userRecords userRows = .ok usersWithPosts ∧
    ∃ statement, (postsOfUsers.load (answering postReplies).traced userRecords userRows).run ((), []) =
      (⟨usersWithPosts, none⟩, (), [⟨statement, .ok postReplies⟩]) := by
  have hd : distinct (postsOfUsers.leads userRows) = [.integer 1] := rfl
  have hk : postsOfUsers.collectKeys userRows = .ok [.integer 1] := by
    refine collectKeys_eq_ok.2 ⟨?_, hd.symm⟩
    simp [leads, userRows, parentValue, parentKey, sourceHoldsForeignKey, postsOfUsers, Row.get?, Value.isNull,
      Value.checkKey]
  obtain ⟨statement, hb, -⟩ : ∃ statement, postsOfUsers.batchStatement [.integer 1] = .ok statement ∧
      statement.params = [⟨.integer, .integer 1⟩] := batchStatement_of_supported (by simp) rfl
  have hg : postReplies.foldlM postsOfUsers.addToGroup [] =
      .ok [(.truth true, [.dict none [(.text "id", .integer 7), (.text "user", .integer 1)]])] := by
    rfl
  have ha : postsOfUsers.attach [(.truth true, [.dict none [(.text "id", .integer 7), (.text "user", .integer 1)]])]
      userRecords userRows = ⟨usersWithPosts, none⟩ := by
    simp [attach, attached, userRecords, userRows, usersWithPosts, parentValue, parentKey, sourceHoldsForeignKey,
      postsOfUsers, Row.get?, Groups.get, Value.assign, Dict.set, Value.eqv, Value.scalarEq, Value.toInt?,
      Value.toText?]
  have h : (postsOfUsers.load (answering postReplies) userRecords userRows).run () = (⟨usersWithPosts, none⟩, ()) :=
    load_eq_ok.2 ⟨_, fetch_eq_ok.2 ⟨_, hk, .inr ⟨by simp, statement, postReplies, hb, rfl, hg⟩⟩, ha⟩
  obtain ⟨-, replies, calls, ht, hc, hn, -⟩ := load_eq_nested h
  rw [hd, if_neg (by simp)] at hc
  obtain ⟨statement', -, -, rfl⟩ := hc
  obtain ⟨groups, hf, -⟩ := load_eq_ok.1 ht
  obtain ⟨keys', hk', ⟨-, -, ht'⟩ | ⟨-, statement'', replies'', hb', hr', -⟩⟩ := fetch_eq_ok.1 hf
  · cases ht'
  · cases hr'
    exact ⟨h, hn, statement', ht⟩

end Relation

end RecordSql
