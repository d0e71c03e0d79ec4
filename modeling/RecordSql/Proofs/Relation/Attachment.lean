import RecordSql.Proofs.Relation.Load
import RecordSql.Proofs.Value.Assignment

/-!
# Attaching to all or to none

Whatever can fail when a relation is loaded fails before the first record is touched: the keys of the parents, the
statement, the reply and every row of it come first. A record that has fields takes the one that it is given. So a
failure leaves all records as they were, also one in the middle of a reply, and else each of them has its field set and
nothing else is changed: not in the records, and not in the rows, unless a row holds one of the records.
-/

namespace RecordSql

/-! ### Things that a value holds -/

namespace Value

mutual

/-- The numbers of the things in a value, its own among them. -/
def things : Value → List Nat
  | .stream id items => id.toList ++ thingsAll items
  | .dict id entries => id.toList ++ thingsEntries entries
  | .record id _ own inherited => id.toList ++ thingsFields own ++ thingsFields inherited
  | .symbol id _ _ v => id.toList ++ things v
  | .list items | .tuple items | .set items => thingsAll items
  | .param _ v => things v
  | _ => []

def thingsAll : List Value → List Nat
  | [] => []
  | v :: vs => things v ++ thingsAll vs

def thingsEntries : List (Value × Value) → List Nat
  | [] => []
  | (k, v) :: rest => things k ++ things v ++ thingsEntries rest

def thingsFields : List (String × Value) → List Nat
  | [] => []
  | (_, v) :: rest => things v ++ thingsFields rest

end

variable {now : Nat → Option Value}

theorem getD_bind_of_apart {id : Identity} (h : ∀ n ∈ id.toList, now n = none) (v : Value) :
    (id.bind now).getD v = v := by
  cases id with
  | none => rfl
  | some n => rw [Option.bind_some, h n (by simp), Option.getD_none]

mutual

/-- A value that holds no thing which has changed is as it was. -/
theorem renew_of_apart (v : Value) (h : ∀ n ∈ v.things, now n = none) : v.renew now = v := by
  cases v with
  | stream id items =>
    rw [things, List.forall_mem_append] at h
    rw [renew, getD_bind_of_apart h.1, renewAll_of_apart items h.2]
  | dict id entries =>
    rw [things, List.forall_mem_append] at h
    rw [renew, getD_bind_of_apart h.1, renewEntries_of_apart entries h.2]
  | record id cls own inherited =>
    rw [things, List.forall_mem_append, List.forall_mem_append] at h
    rw [renew, getD_bind_of_apart h.1.1, renewFields_of_apart own h.1.2, renewFields_of_apart inherited h.2]
  | list items => rw [renew, renewAll_of_apart items h]
  | tuple items => rw [renew, renewAll_of_apart items h]
  | set items => rw [renew, renewAll_of_apart items h]
  | param kind v => rw [renew, renew_of_apart v h]
  | _ => simp only [renew]

theorem renewAll_of_apart (vs : List Value) (h : ∀ n ∈ thingsAll vs, now n = none) : renewAll now vs = vs := by
  cases vs with
  | nil => rfl
  | cons v vs =>
    rw [thingsAll, List.forall_mem_append] at h
    rw [renewAll, renew_of_apart v h.1, renewAll_of_apart vs h.2]

theorem renewEntries_of_apart (d : List (Value × Value)) (h : ∀ n ∈ thingsEntries d, now n = none) :
    renewEntries now d = d := by
  cases d with
  | nil => rfl
  | cons e d =>
    obtain ⟨k, v⟩ := e
    rw [thingsEntries, List.forall_mem_append, List.forall_mem_append] at h
    rw [renewEntries, renew_of_apart k h.1.1, renew_of_apart v h.1.2, renewEntries_of_apart d h.2]

theorem renewFields_of_apart (row : List (String × Value)) (h : ∀ n ∈ thingsFields row, now n = none) :
    renewFields now row = row := by
  cases row with
  | nil => rfl
  | cons e row =>
    obtain ⟨k, v⟩ := e
    rw [thingsFields, List.forall_mem_append] at h
    rw [renewFields, renew_of_apart v h.1, renewFields_of_apart row h.2]

end

end Value

namespace Relation

open Value (HasSet)

variable {σ : Type} {r : Relation} {records : List Value} {rows : List Row} {groups : Groups}

/-! ### Attaching -/

/-- What has become of a thing, if it is one of the records. -/
def Touched.now (touched : Touched) (n : Nat) : Option Value := touched.records.find? (·.identity = some n)

/-- Attaching to records that take the field cannot fail. -/
theorem exists_attach (groups : Groups) (hlength : records.length = rows.length) (haccepts : ∀ v ∈ records, v.Accepts r.field) :
    ∃ records', r.attach groups records rows = ⟨records', none⟩ ∧
      List.Forall₂ (fun p record' => HasSet r.field (r.attached groups p.2) p.1 record') (records.zip rows)
        records' := by
  have heach : ∀ p ∈ records.zip rows, ∃ record', p.1.assign r.field (r.attached groups p.2) = .ok record' :=
    fun p hp => haccepts p.1 (List.of_mem_zip hp).1 _
  obtain ⟨records', hassign⟩ := Outcome.exists_mapM_eq_ok.2 heach
  exact ⟨records', attach_eq_ok.2 ⟨hlength, hassign⟩,
    (Outcome.mapM_eq_ok.1 hassign).imp fun _ _ h => Value.hasSet_of_assign h⟩

/-- Records stay the things that they are. -/
theorem identities_of_hasSet {records' : List Value} (hlength : records.length = rows.length)
    (h : List.Forall₂ (fun p record' => HasSet r.field (r.attached groups p.2) p.1 record') (records.zip rows)
      records') : records'.map Value.identity = records.map Value.identity := by
  have hfst : (records.zip rows).map Prod.fst = records := List.map_fst_zip (Nat.le_of_eq hlength)
  rw [← hfst, List.map_map]
  generalize records.zip rows = pairs at h
  induction h with
  | nil => rfl
  | cons hset _ ih => rw [List.map_cons, List.map_cons, ih, hset.identity, Function.comp_apply]

/-- Different things are found as they are now. -/
theorem find?_identity {records : List Value} (h : (records.filterMap Value.identity).Nodup) {record : Value}
    (hm : record ∈ records) {n : Nat} (hn : record.identity = some n) :
    records.find? (·.identity = some n) = some record := by
  induction records with
  | nil => cases hm
  | cons v records ih =>
    rw [List.find?_cons]
    rcases List.mem_cons.1 hm with rfl | hm
    · rw [decide_eq_true hn]
    · have hmem : n ∈ records.filterMap Value.identity := List.mem_filterMap.2 ⟨record, hm, hn⟩
      have hne : v.identity ≠ some n := by
        intro hv
        rw [List.filterMap_cons_some hv, List.nodup_cons] at h
        exact h.1 hmem
      rw [decide_eq_false hne]
      refine ih ?_ hm
      cases hv : v.identity with
      | none => rwa [List.filterMap_cons_none hv] at h
      | some m =>
        rw [List.filterMap_cons_some hv, List.nodup_cons] at h
        exact h.2

/-- The records after loading, by what fetching came to: a failure has touched none of them, and otherwise each has its
field set. The rows hold what they held. -/
structure AllOrNone (r : Relation) (records : List Value) (rows : List Row) (fetched : Except Failure Groups)
    (touched : Touched) : Prop where
  failed : ∀ f, touched.failure = some f → fetched = .error f ∧ touched.records = records
  loaded : touched.failure = none → ∃ groups, fetched = .ok groups ∧
    List.Forall₂ (fun p record' => HasSet r.field (r.attached groups p.2) p.1 record') (records.zip rows)
      touched.records
  /-- A record is one thing, and has been set once. -/
  once : ∀ record' ∈ touched.records, ∀ n, record'.identity = some n → touched.now n = some record'
  /-- What has become of the records is nothing to the rows. -/
  rows : rows.map (Value.renewFields touched.now) = rows

/-- The records are things of their own: no two are the same, and none is a part of a row. -/
structure Separate (records : List Value) (rows : List Row) : Prop where
  distinct : (records.filterMap Value.identity).Nodup
  apart : ∀ record ∈ records, ∀ n, record.identity = some n → ∀ row ∈ rows, n ∉ Value.thingsFields row

theorem rows_of_identities (touched : Touched) (hs : Separate records rows)
    (h : touched.records.map Value.identity = records.map Value.identity) :
    (∀ record' ∈ touched.records, ∀ n, record'.identity = some n → touched.now n = some record') ∧
      rows.map (Value.renewFields touched.now) = rows := by
  have hdistinct : (touched.records.filterMap Value.identity).Nodup := by
    have hmap : ∀ vs : List Value, vs.filterMap Value.identity = (vs.map Value.identity).filterMap id :=
      fun vs => by rw [List.filterMap_map]; rfl
    rw [hmap, h, ← hmap]
    exact hs.distinct
  refine ⟨fun record' hm n hn => find?_identity hdistinct hm hn, ?_⟩
  refine (List.map_congr_left fun row hrow => ?_).trans (List.map_id rows)
  refine Value.renewFields_of_apart row fun n hn => List.find?_eq_none.2 fun record' hm hid => ?_
  have hmem : record'.identity ∈ records.map Value.identity := h ▸ List.mem_map_of_mem hm
  obtain ⟨record, hrecord, heq⟩ := List.mem_map.1 hmem
  exact hs.apart record hrecord n (heq.trans (of_decide_eq_true hid)) row hrow hn

theorem allOrNone_load (hs : Separate records rows) (hlength : records.length = rows.length)
    (haccepts : ∀ v ∈ records, v.Accepts r.field) (c : Connector σ) (s : σ) :
    AllOrNone r records rows ((r.fetch c rows).run s).1 ((r.load c records rows).run s).1 := by
  cases hf : (r.fetch c rows).run s with
  | mk outcome t => cases outcome with
    | error e =>
      rw [run_load_of_error hf]
      obtain ⟨honce, hrows⟩ := rows_of_identities ⟨records, some e⟩ hs rfl
      exact ⟨fun f h => ⟨by rw [Option.some.inj h], rfl⟩, nofun, honce, hrows⟩
    | ok groups =>
      obtain ⟨records', hattach, hset⟩ := exists_attach groups hlength haccepts
      rw [run_load_of_ok hf, hattach]
      obtain ⟨honce, hrows⟩ := rows_of_identities ⟨records', none⟩ hs (identities_of_hasSet hlength hset)
      exact ⟨nofun, fun _ => ⟨groups, rfl, hset⟩, honce, hrows⟩

end Relation

/-! ### Replies that break off -/

/-- What gives the rows of a reply one after the other, and may fail before it has given all. -/
structure Feed (σ : Type) where
  ask : Statement → StateM σ (List Row × Option Failure)
  log : LogLine → σ → σ

/-- A connector gives all rows of a reply or none. -/
def Connector.feed {σ : Type} (c : Connector σ) : Feed σ where
  ask statement := fun s => match (c.run statement).run s with
    | (.ok rows, t) => ((rows, none), t)
    | (.error e, t) => (([], some e), t)
  log := c.log

namespace Relation

variable {σ : Type} {r : Relation} {records : List Value} {rows : List Row}

/-- The groups of the rows as they come, if none is missing. -/
def gather (r : Relation) (reply : List Row × Option Failure) : Except Failure Groups := do
  let groups ← reply.1.foldlM r.addToGroup []
  match reply.2 with
  | none => return groups
  | some e => throw e

/-- What comes of the reply to a statement. -/
def gatherFrom (feed : Feed σ) (r : Relation) (statement : Statement) : Task σ Groups := do
  let reply ← (feed.ask statement : StateM σ (List Row × Option Failure))
  Task.ofExcept (r.gather reply)

/-- Fetching from a feed. -/
def fetchFrom (feed : Feed σ) (r : Relation) (rows : List Row) : Task σ Groups := do
  let keys ← Task.ofExcept (r.collectKeys rows)
  if keys.isEmpty then return []
  let statement ← Task.ofExcept (r.batchStatement keys)
  modify (feed.log (r.batchLine keys))
  gatherFrom feed r statement

/-- Loading from a feed. -/
def loadFrom (feed : Feed σ) (r : Relation) (records : List Value) (rows : List Row) : StateM σ Touched := do
  match ← (fetchFrom feed r rows).run with
  | .ok groups => return r.attach groups records rows
  | .error e => return ⟨records, some e⟩

/-- A connector that fails where gathering the rows of the feed does. -/
def through (r : Relation) (feed : Feed σ) : Connector σ where
  run statement := fun s =>
    let (reply, t) := (feed.ask statement).run s
    ((r.gather reply).map fun _ => reply.1, t)
  log := feed.log

theorem gather_of_reply (reply : List Row × Option Failure) :
    ((r.gather reply).map fun _ => reply.1) >>= (fun rows => rows.foldlM r.addToGroup []) = r.gather reply := by
  rw [gather]
  cases hg : reply.1.foldlM r.addToGroup [] with
  | error e => rfl
  | ok groups => cases reply.2 with
    | none => simpa using hg
    | some e => rfl

theorem run_gatherFrom (feed : Feed σ) (statement : Statement) (s : σ) :
    (r.gatherFrom feed statement).run s =
      (r.gather ((feed.ask statement).run s).1, ((feed.ask statement).run s).2) :=
  Task.run_bind_of_ok (Task.run_lift s (feed.ask statement : StateM σ (List Row × Option Failure)))

/-- A connector that gives the replies which can be gathered fetches the same. -/
theorem fetchFrom_of_gather {feed : Feed σ} {c : Connector σ} (hlog : feed.log = c.log)
    (h : ∀ statement s, (r.gatherFrom feed statement).run s =
      (do let replies ← c.run statement; Task.ofExcept (replies.foldlM r.addToGroup []) : Task σ Groups).run s) :
    r.fetchFrom feed rows = r.fetch c rows := by
  refine bind_congr fun keys => ?_
  split
  · rfl
  · refine bind_congr fun statement => ?_
    funext s
    refine (h statement (feed.log (r.batchLine keys) s)).trans ?_
    rw [hlog]
    rfl

theorem fetchFrom_eq (feed : Feed σ) (rows : List Row) : r.fetchFrom feed rows = r.fetch (r.through feed) rows := by
  refine fetchFrom_of_gather rfl fun statement s => ?_
  have hgather := gather_of_reply (r := r) ((feed.ask statement).run s).1
  have hask : ((r.through feed).run statement).run s =
      ((r.gather ((feed.ask statement).run s).1).map fun _ => ((feed.ask statement).run s).1.1,
        ((feed.ask statement).run s).2) := rfl
  rw [run_gatherFrom, Task.run_bind, hask]
  cases hg : r.gather ((feed.ask statement).run s).1 with
  | error e => rfl
  | ok groups =>
    rw [hg, Outcome.map_ok, Outcome.ok_bind] at hgather
    rw [Outcome.map_ok]
    dsimp only
    rw [Task.run_ofExcept, hgather]

/-- A connector is a feed. -/
theorem fetchFrom_feed (c : Connector σ) (rows : List Row) : r.fetchFrom c.feed rows = r.fetch c rows := by
  refine fetchFrom_of_gather rfl fun statement s => ?_
  have hask : (c.feed.ask statement).run s = match (c.run statement).run s with
      | (.ok rows, t) => ((rows, none), t)
      | (.error e, t) => (([], some e), t) := rfl
  rw [run_gatherFrom, Task.run_bind, hask]
  cases (c.run statement).run s with
  | mk outcome t => cases outcome with
    | error e => rfl
    | ok replies =>
      dsimp only
      rw [Task.run_ofExcept, gather]
      cases replies.foldlM r.addToGroup [] <;> rfl

/-- Loading from a feed is loading through a connector. -/
theorem loadFrom_eq (feed : Feed σ) (records : List Value) (rows : List Row) :
    r.loadFrom feed records rows = r.load (r.through feed) records rows := by
  rw [loadFrom, fetchFrom_eq]
  rfl

theorem loadFrom_feed (c : Connector σ) (records : List Value) (rows : List Row) :
    r.loadFrom c.feed records rows = r.load c records rows := by
  rw [loadFrom, fetchFrom_feed]
  rfl

/-- **All or none.** Whatever a connector does, and wherever a reply breaks off, loading a relation leaves all records
as they were if it fails, and else sets the field of each, once, and changes nothing else. -/
theorem load_all_or_none {σ : Type} (r : Relation) (records : List Value) (rows : List Row)
    (hs : Separate records rows) (hlength : records.length = rows.length)
    (haccepts : ∀ v ∈ records, v.Accepts r.field) :
    (∀ (c : Connector σ) s, AllOrNone r records rows ((r.fetch c rows).run s).1 ((r.load c records rows).run s).1) ∧
    (∀ (feed : Feed σ) s,
      AllOrNone r records rows ((r.fetchFrom feed rows).run s).1 ((r.loadFrom feed records rows).run s).1) ∧
    ∀ c : Connector σ, r.loadFrom c.feed records rows = r.load c records rows := by
  refine ⟨allOrNone_load hs hlength haccepts, fun feed s => ?_, fun c => loadFrom_feed c records rows⟩
  rw [fetchFrom_eq, loadFrom_eq]
  exact allOrNone_load hs hlength haccepts (r.through feed) s

/-- A connection that is lost in the middle of a reply. -/
def lost : Failure := .driver ⟨"OperationalError", "connection lost", none, none, true⟩

/-- A feed that breaks off behind the first rows of a reply. -/
def breaking (replies : List Row) : Feed Unit := ⟨fun _ => pure (replies, some lost), fun _ s => s⟩

/-- Two users get their posts, and if the reply breaks off behind the first post, none of them gets any. -/
theorem load_all_or_none_posts :
    let records : List Value := [.dict (some 0) [(.text "id", .integer 1)], .dict (some 1) []]
    let whole := ((postsOfUsers.load (answering postReplies) records userRows).run ()).1
    let broken := ((postsOfUsers.loadFrom (breaking postReplies) records userRows).run ()).1
    Separate records userRows ∧ records.length = userRows.length ∧ (∀ v ∈ records, v.Accepts postsOfUsers.field) ∧
    (broken.failure = some lost ∧ broken.records = records) ∧
    whole.failure = none ∧ ∃ groups, List.Forall₂ (fun p record' =>
      Value.HasSet postsOfUsers.field (postsOfUsers.attached groups p.2) p.1 record') (records.zip userRows)
        whole.records := by
  intro records whole broken
  have hs : Separate records userRows := ⟨by decide, by simp [userRows, Value.thingsFields, Value.things]⟩
  have haccepts : ∀ v ∈ records, v.Accepts postsOfUsers.field := by
    simp [records, Value.accepts_dict]
  obtain ⟨hwhole, hbroken, -⟩ := load_all_or_none (σ := Unit) postsOfUsers records userRows hs rfl haccepts
  have hk : postsOfUsers.collectKeys userRows = .ok [.integer 1] := rfl
  obtain ⟨statement, hb, -⟩ : ∃ statement, postsOfUsers.batchStatement [.integer 1] = .ok statement ∧
      statement.params = [⟨.integer, .integer 1⟩] := batchStatement_of_supported (by simp) rfl
  have hfetched : ((postsOfUsers.fetchFrom (breaking postReplies) userRows).run ()).1 = .error lost := by
    rw [fetchFrom_eq, run_fetch_of_keys hk (by simp), exchange, hb]
    rfl
  have hgroups : ((postsOfUsers.fetch (answering postReplies) userRows).run ()).1 =
      .ok [(.truth true, [.dict none [(.text "id", .integer 7), (.text "user", .integer 1)]])] := by
    rw [run_fetch_of_keys hk (by simp), exchange, hb]
    rfl
  refine ⟨hs, rfl, haccepts, ?_, ?_⟩
  · cases hfailure : broken.failure with
    | none =>
      obtain ⟨groups, hok, -⟩ := (hbroken (breaking postReplies) ()).loaded hfailure
      cases hfetched.symm.trans hok
    | some f =>
      obtain ⟨herror, hrecords⟩ := (hbroken (breaking postReplies) ()).failed f hfailure
      cases hfetched.symm.trans herror
      exact ⟨rfl, hrecords⟩
  · cases hfailure : whole.failure with
    | none =>
      obtain ⟨groups, -, hset⟩ := (hwhole (answering postReplies) ()).loaded hfailure
      exact ⟨rfl, groups, hset⟩
    | some f =>
      obtain ⟨herror, -⟩ := (hwhole (answering postReplies) ()).failed f hfailure
      cases hgroups.symm.trans herror

end Relation

end RecordSql
