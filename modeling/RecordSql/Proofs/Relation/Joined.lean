import RecordSql.Proofs.Relation.Declaration
import RecordSql.Proofs.Relation.Load
import RecordSql.Relation.Joined

/-!
# Joined and batched relations

A relation to one record can be joined to the query or be loaded afterwards. Given the same related rows, both make the
same records of them, or both fail.
-/

namespace RecordSql

namespace Relation

variable {σ : Type} {c : Connector σ} {r : Relation} {row m : Row} {found : Option Row} {column : String}

/-! ### Rows with a joined relation -/

/-- The column of the target that a related row is found by. -/
def joinColumn (r : Relation) : String :=
  match r.route with
  | .reverse => r.foreignKey
  | .direct | .through => r.modelKey

/-- The values of the target columns; nulls if no related row was found. -/
def joinedCells (r : Relation) (found : Option Row) : Row :=
  r.target.columns.map fun column => (column, (found.bind (·.get? column)).getD .null)

/-- A row of the source with what a LEFT JOIN adds to it. -/
def extend (r : Relation) (row : Row) (found : Option Row) : Row :=
  row ++ (r.joinedCells found).map fun (column, v) => (r.columnLabel column, v)

theorem afterLabel?_columnLabel (r : Relation) (column : String) :
    afterLabel? relationsLabel (r.columnLabel column) = some (r.field ++ "." ++ column) :=
  afterLabel?_eq_some.2 (by rw [columnLabel, joinedName, String.append_assoc, String.append_assoc, String.append_assoc])

theorem base_extend (r : Relation) (row : Row) (found : Option Row) : (r.extend row found).base = row.base := by
  rw [extend, Row.base_append]
  have hnil : Row.base ((r.joinedCells found).map fun (column, v) => (r.columnLabel column, v)) = [] := by
    refine List.filter_eq_nil_iff.2 fun e he => ?_
    obtain ⟨⟨column, v⟩, -, rfl⟩ := List.mem_map.1 he
    simp [afterLabel?_columnLabel]
  rw [hnil, List.append_nil]

/-- Behind the label of the relation are just the cells of the related row. -/
theorem labelled_extend (h : ∀ e ∈ row, afterLabel? r.joinedPlan.label e.1 = none) :
    (r.extend row found).labelled r.joinedPlan.label = r.joinedCells found := by
  have hrow : row.labelled r.joinedPlan.label = [] := by
    refine List.filterMap_eq_nil_iff.2 fun e he => ?_
    rw [Option.map_eq_none_iff]
    exact h e he
  have hcells : Row.labelled ((r.joinedCells found).map fun (column, v) => (r.columnLabel column, v))
      r.joinedPlan.label = r.joinedCells found := by
    rw [Row.labelled, List.filterMap_map]
    refine (List.filterMap_congr fun e _ => ?_).trans List.filterMap_some
    have he : afterLabel? r.joinedPlan.label (r.columnLabel e.1) = some e.1 := afterLabel?_eq_some.2 rfl
    simp only [Function.comp_apply, he, Option.map_some]
  rw [extend, Row.labelled, List.filterMap_append, ← Row.labelled, ← Row.labelled, hrow, hcells, List.nil_append]

end Relation

/-! ### What a declaration has checked -/

namespace Declaration

variable {d : Declaration} {r : Relation}

/-- The column that related rows are found by is one of the target. -/
theorem joinColumn_mem (h : d.complete = .ok r) (hone : r.reach = .one) : r.joinColumn ∈ r.target.columns := by
  have hjoin : r.joinColumn = r.relatedKey := by
    rw [Relation.joinColumn, Relation.relatedKey, hone]
    cases r.route <;> rfl
  rw [hjoin]
  exact (completionOf_complete h).relatedKey

end Declaration

namespace Relation

variable {σ : Type} {c : Connector σ} {r : Relation} {row m : Row} {found : Option Row} {column : String}

/-! ### The record of a related row -/

/-- What a relation to one record makes of the related row, if there is one. -/
def related (r : Relation) : Option Row → Except Failure Value
  | none => .ok .null
  | some m => r.target.plan.run m

/-- A related row as the database has it: it has the columns of the target, and what it was found by. -/
structure Complete (r : Relation) (m : Row) : Prop where
  columns : ∀ column ∈ r.target.columns, ∃ v, m.get? column = some v
  joined : ∃ v, m.get? r.joinColumn = some v ∧ v.isNull = false

/-- A relation to one record whose target has the column that it is found by, and no column with a reserved name. -/
structure Joinable (r : Relation) : Prop where
  reach : r.reach = .one
  joinColumn : r.joinColumn ∈ r.target.columns
  unreserved : ∀ column ∈ r.target.columns, Unreserved column

variable (hr : r.Joinable)

include hr

theorem Joinable.run_congr {row row' : Row} (h : ∀ column ∈ r.target.columns, row.get? column = row'.get? column) :
    r.target.plan.run row = r.target.plan.run row' :=
  Plan.run_congr (List.ne_nil_of_mem hr.joinColumn) h

/-- Joined, a related row has the same record; its join column tells it from no row. -/
theorem Joinable.run_joinedPlan (h : ∀ e ∈ row, afterLabel? r.joinedPlan.label e.1 = none)
    (hfound : ∀ m ∈ found, r.Complete m) :
    r.joinedPlan.run (r.extend row found) = r.related found := by
  rw [JoinedPlan.run, labelled_extend h]
  cases found with
  | none =>
    rw [if_pos (by simp [joinedCells, Value.isNull])]
    rfl
  | some m =>
    obtain ⟨hcolumns, v, hv, hnull⟩ := hfound m rfl
    have hcell : (r.joinColumn, v) ∈ r.joinedCells (some m) :=
      List.mem_map.2 ⟨r.joinColumn, hr.joinColumn, by rw [Option.bind_some, hv]; rfl⟩
    rw [if_neg]
    · refine hr.run_congr fun column hc => ?_
      obtain ⟨w, hw⟩ := hcolumns column hc
      rw [joinedCells, Row.get?_map _ hc, Option.bind_some, hw]
      rfl
    · intro hall
      have hv' : v.isNull = true := List.all_eq_true.1 hall _ hcell
      rw [hnull] at hv'
      cases hv'

/-- In a batch, a related row has the same record. -/
theorem Joinable.run_base_set (key : Value) :
    r.target.plan.run (Row.base (m.set relationKey key)) = r.target.plan.run m := by
  refine hr.run_congr fun column hc => ?_
  rw [Row.get?_base (hr.unreserved column hc), Row.get?_set, if_neg (hr.unreserved column hc).2]

omit hr

/-! ### Parents with their related rows -/

/-- Parents, and for each the related row that the database has for it, if any: none for a null, and the same for equal
keys. A parent has no columns that a joined relation would be read from. -/
structure Paired (r : Relation) (base : List (Row × Option Row)) : Prop where
  unlabelled : ∀ p ∈ base, ∀ e ∈ p.1, afterLabel? r.joinedPlan.label e.1 = none
  supported : ∀ p ∈ base, (r.parentValue p.1).isNull = false →
    (r.parentValue p.1).checkKey = .ok () ∧ ∃ param, Param.ofValue (r.parentValue p.1) = .ok param
  unmatched : ∀ p ∈ base, (r.parentValue p.1).isNull → p.2 = none
  shared : ∀ p ∈ base, ∀ q ∈ base, (r.parentValue p.1).eqv (r.parentValue q.1) → p.2 = q.2
  complete : ∀ p ∈ base, ∀ m ∈ p.2, r.Complete m

/-- Replies that are, in any order, the related rows of all keys, each with a key equal to that one. It can be a key
itself, unlike the bytes that can change and are equal to those that cannot. -/
structure Answered (r : Relation) (base : List (Row × Option Row)) (replies : List Row) : Prop where
  sound : ∀ reply ∈ replies, ∃ p ∈ base, ∃ m key, p.2 = some m ∧ reply = m.set relationKey key ∧
    key.checkKey = .ok () ∧ key.eqv (r.parentValue p.1)
  once : ∀ p ∈ base, p.2.isSome → ∃ reply, r.repliesTo replies p.1 = [reply]

/-- A connector that answers the statement for the keys of all parents. -/
def Answers (c : Connector σ) (r : Relation) (base : List (Row × Option Row)) : Prop :=
  ∀ statement, r.batchStatement (distinct (r.leads (base.map (·.1)))) = .ok statement → ∀ s,
    ∃ replies s', (c.run statement).run s = (.ok replies, s') ∧ r.Answered base replies

variable {base : List (Row × Option Row)} {replies : List Row}

theorem Paired.supported_leads (hb : r.Paired base) : ∀ v ∈ r.leads (base.map (·.1)),
    v.checkKey = .ok () ∧ ∃ param, Param.ofValue v = .ok param := by
  intro v hv
  obtain ⟨hmem, hn⟩ := List.mem_filter.1 hv
  obtain ⟨row, hrow, rfl⟩ := List.mem_map.1 hmem
  obtain ⟨p, hp, rfl⟩ := List.mem_map.1 hrow
  exact hb.supported p hp (by simpa using hn)

theorem Paired.collectKeys_eq (hb : r.Paired base) :
    r.collectKeys (base.map (·.1)) = .ok (distinct (r.leads (base.map (·.1)))) :=
  collectKeys_eq_ok.2 ⟨fun v hv => (hb.supported_leads v hv).1, rfl⟩

theorem Paired.checkKey (hb : r.Paired base) {p : Row × Option Row} (hp : p ∈ base) :
    (r.parentValue p.1).checkKey = .ok () :=
  checkKey_parentValue hb.collectKeys_eq (List.mem_map_of_mem hp)

/-- The related rows among the replies are those that the parent is paired with. -/
theorem Answered.eq_set (hb : r.Paired base) (ha : r.Answered base replies) {p : Row × Option Row} (hp : p ∈ base)
    {reply : Row} (h : reply ∈ r.repliesTo replies p.1) : ∃ m key, p.2 = some m ∧ reply = m.set relationKey key := by
  obtain ⟨hreply, hany⟩ := List.mem_filter.1 h
  obtain ⟨q, hq, m, key, hm, rfl, hkey, heq⟩ := ha.sound reply hreply
  rw [Row.get?_set, if_pos rfl, Option.any_some] at hany
  have hqp : (r.parentValue q.1).eqv (r.parentValue p.1) :=
    Value.eqv_trans (hb.checkKey hq) hkey (Value.eqv_symm hkey (hb.checkKey hq) heq) hany
  exact ⟨m, key, by rw [← hb.shared q hq p hp hqp, hm], rfl⟩

/-- A parent with a related row has just one reply, which is this row with a key. -/
theorem Answered.repliesTo_eq (hb : r.Paired base) (ha : r.Answered base replies) {p : Row × Option Row} (hp : p ∈ base)
    (hm : p.2 = some m) : ∃ key, r.repliesTo replies p.1 = [m.set relationKey key] := by
  obtain ⟨reply, hreply⟩ := ha.once p hp (by rw [hm]; rfl)
  have hmem : reply ∈ r.repliesTo replies p.1 := by simp [hreply]
  obtain ⟨m', key, hm', rfl⟩ := ha.eq_set hb hp hmem
  obtain rfl := Option.some.inj (hm.symm.trans hm')
  exact ⟨key, hreply⟩

/-- Going through the replies gives a parent the record of its related row. -/
theorem Answered.map_matching (hr : r.Joinable) (hb : r.Paired base) (ha : r.Answered base replies)
    {p : Row × Option Row} (hp : p ∈ base) : (r.matching replies p.1).map r.holding = r.related p.2 := by
  have hholding : r.holding [] = .null ∧ ∀ v, r.holding [v] = v := by
    rw [holding, hr.reach]
    exact ⟨rfl, fun v => by rw [holding, hr.reach]; rfl⟩
  show ((r.repliesTo replies p.1).mapM fun reply => r.target.plan.run reply.base).map r.holding = _
  cases hm : p.2 with
  | none =>
    have hnil : r.repliesTo replies p.1 = [] := by
      refine List.eq_nil_iff_forall_not_mem.2 fun reply h => ?_
      obtain ⟨m, key, hm', -⟩ := ha.eq_set hb hp h
      rw [hm] at hm'
      cases hm'
    rw [hnil]
    exact congrArg Except.ok hholding.1
  | some m =>
    obtain ⟨key, hreply⟩ := ha.repliesTo_eq hb hp hm
    rw [hreply, Outcome.mapM_cons, hr.run_base_set, related]
    cases r.target.plan.run m with
    | error e => rfl
    | ok v => exact congrArg Except.ok (hholding.2 v)

/-- The replies can be grouped if the related rows of all parents have records. -/
theorem Answered.exists_groups_iff (hr : r.Joinable) (hb : r.Paired base) (ha : r.Answered base replies) :
    (∃ groups, replies.foldlM r.addToGroup [] = .ok groups) ↔ ∀ p ∈ base, ∃ v, r.related p.2 = .ok v := by
  have hgroups : (∃ groups, replies.foldlM r.addToGroup [] = .ok groups) ↔
      ∀ reply ∈ replies, ∃ e, r.entry reply = .ok e := by
    rw [← Outcome.exists_mapM_eq_ok]
    simp only [foldlM_addToGroup, Outcome.map_eq_ok]
    constructor
    · rintro ⟨_, entries, he, -⟩
      exact ⟨entries, he⟩
    · rintro ⟨entries, he⟩
      exact ⟨_, entries, he, rfl⟩
  rw [hgroups]
  constructor
  · intro h p hp
    cases hm : p.2 with
    | none => exact ⟨.null, rfl⟩
    | some m =>
      obtain ⟨key, hreply⟩ := ha.repliesTo_eq hb hp hm
      have hmem : m.set relationKey key ∈ r.repliesTo replies p.1 := by simp [hreply]
      obtain ⟨e, he⟩ := h _ (List.mem_filter.1 hmem).1
      exact ⟨e.2, by rw [← (entry_eq_ok.1 he).2.2, hr.run_base_set]; rfl⟩
  · intro h reply hreply
    obtain ⟨p, hp, m, key, hm, rfl, hkey, -⟩ := ha.sound reply hreply
    obtain ⟨v, hv⟩ := h p hp
    rw [hm] at hv
    exact ⟨(key, v), entry_eq_ok.2 ⟨by rw [Row.get?_set, if_pos rfl], hkey, by rw [hr.run_base_set]; exact hv⟩⟩

/-- What is fetched are the groups of replies to the statement, or of no replies if there is no key to ask for. -/
theorem fetch_iff (hb : r.Paired base) (hc : Answers c r base) (s : σ) :
    ∃ replies s', r.Answered base replies ∧ ∀ groups t,
      (r.fetch c (base.map (·.1))).run s = (.ok groups, t) ↔ replies.foldlM r.addToGroup [] = .ok groups ∧ t = s' := by
  have hk := hb.collectKeys_eq
  by_cases hnil : distinct (r.leads (base.map (·.1))) = []
  · refine ⟨[], s, ⟨by simp, fun p hp hsome => ?_⟩, fun groups t => ?_⟩
    · have hmem : r.parentValue p.1 ∈ r.leads (base.map (·.1)) := by
        refine List.mem_filter.2 ⟨List.mem_map_of_mem (List.mem_map_of_mem hp), ?_⟩
        cases hn : (r.parentValue p.1).isNull with
        | true =>
          rw [hb.unmatched p hp hn] at hsome
          cases hsome
        | false => rfl
      rw [distinct_eq_nil_iff.1 hnil] at hmem
      cases hmem
    · rw [fetch_eq_ok]
      constructor
      · rintro ⟨keys, hk', ⟨-, rfl, rfl⟩ | ⟨hne, -⟩⟩
        · exact ⟨rfl, rfl⟩
        · rw [hk, hnil] at hk'
          exact absurd (Except.ok.inj hk').symm hne
      · rintro ⟨hg, rfl⟩
        exact ⟨_, hk, .inl ⟨hnil, (Except.ok.inj hg).symm, rfl⟩⟩
  · obtain ⟨ps, hps⟩ := Outcome.exists_mapM_eq_ok.2 fun v hv =>
      (hb.supported_leads v ((distinct_sublist _).subset hv)).2
    obtain ⟨statement, hs, -⟩ := batchStatement_of_supported (r := r) hnil hps
    obtain ⟨replies, s', hrun, ha⟩ := hc statement hs (c.log (r.batchLine (distinct (r.leads (base.map (·.1))))) s)
    refine ⟨replies, s', ha, fun groups t => ?_⟩
    rw [fetch_eq_ok]
    constructor
    · rintro ⟨keys, hk', ⟨rfl, -⟩ | ⟨-, statement', replies', hs', hrun', hg⟩⟩
      · exact absurd (Except.ok.inj (hk.symm.trans hk')) hnil
      · obtain rfl := Except.ok.inj (hk.symm.trans hk')
        obtain rfl := Except.ok.inj (hs.symm.trans hs')
        cases hrun.symm.trans hrun'
        exact ⟨hg, rfl⟩
    · rintro ⟨hg, rfl⟩
      exact ⟨_, hk, .inr ⟨hnil, statement, replies, hs, hrun, hg⟩⟩

/-- What loading after the query makes of the records of the parents. -/
theorem load_iff (hr : r.Joinable) (hb : r.Paired base) (hc : Answers c r base) (s : σ) {records records' : List Value}
    (hl : records.length = base.length) :
    (∃ s', (r.load c records (base.map (·.1))).run s = (⟨records', none⟩, s')) ↔
      (records.zip base).mapM (fun p => r.related p.2.2 >>= fun x => p.1.assign r.field x) = .ok records' := by
  obtain ⟨replies, s', ha, hfetch⟩ := fetch_iff hb hc s
  have hnested : r.nested replies records (base.map (·.1)) =
      (records.zip base).mapM fun p => r.related p.2.2 >>= fun x => p.1.assign r.field x := by
    rw [nested, List.zip_map_right, List.mapM_map]
    refine Outcome.mapM_congr fun p hp => ?_
    rw [← ha.map_matching hr hb (List.of_mem_zip hp).2]
    show (r.matching replies p.2.1 >>= fun related => p.1.assign r.field (r.holding related)) = _
    cases r.matching replies p.2.1 <;> rfl
  rw [← hnested]
  constructor
  · rintro ⟨t, h⟩
    obtain ⟨groups, hf, hattach⟩ := load_eq_ok.1 h
    rw [nested_of_groups hb.collectKeys_eq ((hfetch groups t).1 hf).1]
    exact (attach_eq_ok.1 hattach).2
  · intro h
    have hall : ∀ p ∈ base, ∃ v, r.related p.2 = .ok v := by
      intro p hp
      rw [← List.map_snd_zip (Nat.le_of_eq hl.symm)] at hp
      obtain ⟨q, hq, rfl⟩ := List.mem_map.1 hp
      obtain ⟨_, hx⟩ := Outcome.exists_mapM_eq_ok.1 ⟨_, hnested ▸ h⟩ q hq
      obtain ⟨v, hv, -⟩ := Outcome.bind_eq_ok.1 hx
      exact ⟨v, hv⟩
    obtain ⟨groups, hg⟩ := (ha.exists_groups_iff hr hb).2 hall
    rw [nested_of_groups hb.collectKeys_eq hg] at h
    exact ⟨s', load_eq_ok.2 ⟨groups, (hfetch groups s').2 ⟨hg, rfl⟩, attach_eq_ok.2 ⟨by simpa using hl, h⟩⟩⟩

/-- What a joined query makes of the rows. -/
theorem mapRows_joined (hr : r.Joinable) (hb : r.Paired base) :
    mapRows r.source.plan [r.joinedPlan] (base.map fun p => r.extend p.1 p.2) =
      base.mapM fun p => r.source.plan.run p.1.base >>= fun record =>
        r.related p.2 >>= fun x => record.assign r.field x := by
  rw [mapRows, List.mapM_map]
  refine Outcome.mapM_congr fun p hp => ?_
  show mapRow r.source.plan [r.joinedPlan] (r.extend p.1 p.2) = _
  rw [mapRow, base_extend]
  cases r.source.plan.run p.1.base with
  | error e => rfl
  | ok record =>
    rw [Outcome.ok_bind, Outcome.ok_bind, List.foldlM_cons, hr.run_joinedPlan (hb.unlabelled p hp) (hb.complete p hp)]
    simp only [List.foldlM_nil, bind_pure]
    rfl

theorem mapRows_plain (r : Relation) (base : List (Row × Option Row)) :
    mapRows r.source.plan [] (base.map (·.1)) = base.mapM fun p => r.source.plan.run p.1.base := by
  rw [mapRows, List.mapM_map]
  refine Outcome.mapM_congr fun p _ => ?_
  show mapRow r.source.plan [] p.1 = _
  rw [mapRow]
  cases r.source.plan.run p.1.base <;> rfl

/-- Joined to the query or loaded afterwards, a relation to one record gives the same records, or both fail. -/
theorem joined_iff_loaded {d : Declaration} (hd : d.complete = .ok r) (hone : r.reach = .one)
    (hu : ∀ column ∈ r.target.columns, Unreserved column) (hb : r.Paired base) (hc : Answers c r base) (s : σ)
    (records' : List Value) :
    mapRows r.source.plan [r.joinedPlan] (base.map fun p => r.extend p.1 p.2) = .ok records' ↔
      ∃ records s', mapRows r.source.plan [] (base.map (·.1)) = .ok records ∧
        (r.load c records (base.map (·.1))).run s = (⟨records', none⟩, s') := by
  have hr : r.Joinable := ⟨hone, Declaration.joinColumn_mem hd hone, hu⟩
  rw [mapRows_joined hr hb, mapRows_plain, Outcome.mapM_bind_eq_ok]
  refine exists_congr fun records => ?_
  rw [exists_and_left]
  refine and_congr_right fun hrecords => ?_
  have hl := (Outcome.mapM_eq_ok.1 hrecords).length_eq.symm
  exact (load_iff hr hb hc s hl).symm

/-- The author of a post. -/
def authorDeclaration : Declaration where
  field := "author"
  reach := .one
  route := .direct
  source := ⟨"posts", ["id"], ["id", "user"], ["id"], .copy, none⟩
  target := ⟨"users", ["id"], ["id", "name"], ["id"], .copy, none⟩
  foreignKey := some "user"
  modelKey := none
  pivot := ⟨none, none, none⟩

def authorOfPost : Relation :=
  ⟨"author", .one, .direct, authorDeclaration.source, authorDeclaration.target, "user", "id", ⟨none, none, none⟩⟩

/-- A post with its author, who has a column that the table does not declare, and a post without one. -/
def postBase : List (Row × Option Row) :=
  [([("id", .integer 5), ("user", .integer 1)], some [("id", .integer 1), ("name", .text "a"), ("note", .null)]),
   ([("id", .integer 6), ("user", .null)], none)]

/-- The author comes back under a key of another type. -/
def authorReplies : List Row :=
  [[("id", .integer 1), ("name", .text "a"), ("note", .null), (relationKey, .truth true)]]

def postsWithAuthor : List Value :=
  [.dict none [(.text "id", .integer 5), (.text "user", .integer 1),
    (.text "author", .dict none [(.text "id", .integer 1), (.text "name", .text "a")])],
   .dict none [(.text "id", .integer 6), (.text "user", .null), (.text "author", .null)]]

theorem paired_postBase : authorOfPost.Paired postBase where
  unlabelled := by decide
  supported := by
    intro p hp hn
    rcases List.mem_cons.1 hp with rfl | hp
    · exact ⟨rfl, _, rfl⟩
    · obtain rfl := List.mem_singleton.1 hp
      cases hn
  unmatched := by
    intro p hp hn
    rcases List.mem_cons.1 hp with rfl | hp
    · cases hn
    · obtain rfl := List.mem_singleton.1 hp
      rfl
  shared := by
    have hone : (Value.integer 1).eqv .null = false := by simp [Value.eqv, Value.scalarEq, Value.toInt?]
    have hnull : Value.null.eqv (.integer 1) = false := by simp [Value.eqv, Value.scalarEq, Value.toInt?]
    intro p hp q hq h
    rcases List.mem_cons.1 hp with rfl | hp
    · rcases List.mem_cons.1 hq with rfl | hq
      · rfl
      · obtain rfl := List.mem_singleton.1 hq
        cases hone.symm.trans h
    · obtain rfl := List.mem_singleton.1 hp
      rcases List.mem_cons.1 hq with rfl | hq
      · cases hnull.symm.trans h
      · obtain rfl := List.mem_singleton.1 hq
        rfl
  complete := by
    intro p hp m hm
    rcases List.mem_cons.1 hp with rfl | hp
    · obtain rfl := Option.some.inj hm
      refine ⟨?_, .integer 1, rfl, rfl⟩
      intro column hc
      rcases List.mem_cons.1 hc with rfl | hc
      · exact ⟨_, rfl⟩
      · obtain rfl := List.mem_singleton.1 hc
        exact ⟨_, rfl⟩
    · obtain rfl := List.mem_singleton.1 hp
      cases hm

theorem answers_postBase : Answers (answering authorReplies) authorOfPost postBase := by
  have heq : (Value.truth true).eqv (.integer 1) = true := by simp [Value.eqv, Value.scalarEq, Value.toInt?]
  refine fun statement _ s => ⟨authorReplies, s, rfl, ?_, ?_⟩
  · intro reply hreply
    obtain rfl := List.mem_singleton.1 hreply
    exact ⟨_, List.mem_cons_self, _, .truth true, rfl, rfl, rfl, heq⟩
  · intro p hp hsome
    rcases List.mem_cons.1 hp with rfl | hp
    · exact ⟨_, List.filter_eq_self.2 fun reply hreply => by
        obtain rfl := List.mem_singleton.1 hreply
        exact heq⟩
    · obtain rfl := List.mem_singleton.1 hp
      cases hsome

theorem joined_iff_loaded_author :
    authorDeclaration.complete = .ok authorOfPost ∧ authorOfPost.Paired postBase ∧
    Answers (answering authorReplies) authorOfPost postBase ∧
    mapRows authorOfPost.source.plan [authorOfPost.joinedPlan] (postBase.map fun p => authorOfPost.extend p.1 p.2) =
      .ok postsWithAuthor ∧
    ∃ records s', mapRows authorOfPost.source.plan [] (postBase.map (·.1)) = .ok records ∧
      (authorOfPost.load (answering authorReplies) records (postBase.map (·.1))).run () =
        (⟨postsWithAuthor, none⟩, s') := by
  have hd : authorDeclaration.complete = .ok authorOfPost := by rfl
  have hu : ∀ column ∈ authorOfPost.target.columns, Unreserved column := by decide
  have hjoined : mapRows authorOfPost.source.plan [authorOfPost.joinedPlan]
      (postBase.map fun p => authorOfPost.extend p.1 p.2) = .ok postsWithAuthor := by
    have hset (n : Int) (user x : Value) :
        (Value.dict none [(.text "id", .integer n), (.text "user", user)]).assign "author" x =
          .ok (.dict none [(.text "id", .integer n), (.text "user", user), (.text "author", x)]) := by
      simp [Value.assign, Dict.set, Value.eqv, Value.scalarEq, Value.toInt?, Value.toText?]
    rw [mapRows_joined ⟨rfl, Declaration.joinColumn_mem hd rfl, hu⟩ paired_postBase, Outcome.mapM_eq_ok]
    exact .cons (hset 5 (.integer 1) _) (.cons (hset 6 .null .null) .nil)
  exact ⟨hd, paired_postBase, answers_postBase, hjoined,
    (joined_iff_loaded hd rfl hu paired_postBase answers_postBase () postsWithAuthor).1 hjoined⟩

end Relation

end RecordSql
