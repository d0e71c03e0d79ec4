import RecordSql.Proofs.Sql.ConditionTree
import RecordSql.Proofs.Sql.Wording
import RecordSql.Table.Key

/-!
# Conditions on keys

A condition that matches keys binds the values of the keys, key by key in the order of the key columns, and nothing but
names of the table stands in its text.
-/

namespace RecordSql

/-- A balanced fragment whose text is worded with names from a list. -/
structure Fragment.Named (names : List String) (f : Fragment) : Prop where
  balanced : f.Balanced
  worded : Worded names true f.text

theorem Fragment.named_plain {names : List String} {text : String} (h : Unmarked names true text) :
    (Fragment.plain text).Named names :=
  ⟨Fragment.balanced_plain.2 h.markFree, h.worded⟩

theorem Fragment.Named.mono {names names' : List String} {f : Fragment} (hsub : ∀ n ∈ names, n ∈ names')
    (h : f.Named names) : f.Named names' :=
  ⟨h.balanced, h.worded.mono hsub⟩

/-! ### Single conditions and groups -/

namespace Condition

variable {names : List String} {column keyword : String} {v : Value} {values : List Value} {c : Condition}

theorem named_compare (hc : Worded names true column) (hfree : MarkFree column)
    (h : compare column "=" v = .ok c) : c.Named names := by
  obtain ⟨htext, hps⟩ := compare_eq_ok h
  obtain ⟨c', hc', hb, -⟩ := compare_ok hfree (show MarkFree "=" by decide) hps
  obtain rfl := Except.ok.inj (h.symm.trans hc')
  refine ⟨hb, ?_⟩
  rw [htext, String.append_assoc, String.append_assoc]
  exact hc.append (Worded.of_plain (by decide))

/-- As many bare marks as asked for are plain code. -/
theorem worded_marks (count : Nat) : Worded names true (marks count) :=
  Worded.intercalate (by decide) fun t ht => by
    rw [List.eq_of_mem_replicate ht]
    exact Worded.of_plain (by decide)

theorem named_member (hc : Worded names true column) (hfree : MarkFree column)
    (h : member column values = .ok c) : c.Named names := by
  obtain ⟨htext, hps⟩ := member_eq_ok h
  have hne : values ≠ [] := by
    rintro rfl
    cases h
  obtain ⟨c', hc', hb, -⟩ := member_ok hfree hne hps
  obtain rfl := Except.ok.inj (h.symm.trans hc')
  refine ⟨hb, ?_⟩
  rw [htext]
  exact (hc.between (by decide) (worded_marks _)).append (Worded.of_plain (by decide))

theorem named_group {cs : List Condition} (hk : MarkFree keyword) (hcode : PlainCode (" " ++ keyword ++ " "))
    (hcs : ∀ c ∈ cs, c.Named names) (h : group keyword cs = .ok c) :
    c.Named names ∧ c.params = cs.flatMap Fragment.params := by
  obtain ⟨htext, hps⟩ := group_eq_ok h
  have hne : cs ≠ [] := by
    rintro rfl
    cases h
  obtain ⟨c', hc', hb, -⟩ := group_ok hk hne fun c hc => (hcs c hc).balanced
  obtain rfl := Except.ok.inj (h.symm.trans hc')
  refine ⟨⟨hb, ?_⟩, hps⟩
  have hjoined : Worded names true (String.intercalate (" " ++ keyword ++ " ") (cs.map Fragment.text)) := by
    refine Worded.intercalate hcode fun t ht => ?_
    obtain ⟨c, hc, rfl⟩ := List.mem_map.1 ht
    exact (hcs c hc).worded
  rw [htext]
  exact (Worded.prepend (by decide) hjoined).append (Worded.of_plain (by decide))

/-- Conditions that each bind some values bind all of them together. -/
theorem named_mapM {α : Type} {f : α → Except Failure Condition} {g : α → Except Failure (List Value)} {l : List α}
    {cs : List Condition} (hfg : ∀ a ∈ l, ∀ c, f a = .ok c →
      c.Named names ∧ ∃ vs, g a = .ok vs ∧ Param.ofValues vs = .ok c.params)
    (h : l.mapM f = .ok cs) : (∀ c ∈ cs, c.Named names) ∧
      ∃ values, l.mapM g = .ok values ∧ Param.ofValues values.flatten = .ok (cs.flatMap Fragment.params) := by
  induction l generalizing cs with
  | nil =>
    cases h
    exact ⟨fun c hc => absurd hc List.not_mem_nil, [], rfl, rfl⟩
  | cons a l ih =>
    rw [Outcome.mapM_cons] at h
    obtain ⟨c, hc, h⟩ := Outcome.bind_eq_ok.1 h
    obtain ⟨cs, hcs, rfl⟩ := Outcome.map_eq_ok.1 h
    obtain ⟨ha, hl⟩ := List.forall_mem_cons.1 hfg
    obtain ⟨hnamed, vs, hvs, hps⟩ := ha c hc
    obtain ⟨hrest, values, hvalues, hall⟩ := ih hl hcs
    refine ⟨List.forall_mem_cons.2 ⟨hnamed, hrest⟩, vs :: values, by rw [Outcome.mapM_cons, hvs, hvalues]; rfl, ?_⟩
    rw [List.flatten_cons, List.flatMap_cons]
    exact Param.ofValues_append.2 ⟨_, _, hps, hall, rfl⟩

end Condition

/-! ### Keys of a table -/

namespace Table

variable {t : Table} {key : Value} {c : Condition} {column : String} {v : Value}

/-- A table whose declaration is in order has key columns, and columns that insertions write. -/
theorem fault?_of_check (h : t.check = .ok t) : t.fault? = none := by
  unfold check at h
  split at h
  · cases h
  · assumption

theorem columns_of_check (h : t.check = .ok t) : t.key ≠ [] ∧ t.insertColumns ≠ [] := by
  have hfault := fault?_of_check h
  unfold fault? at hfault
  simp only [List.isEmpty_iff] at hfault
  split_ifs at hfault with hname hcolumns hunique hkey hunknown hinsert
  exact ⟨hkey, hinsert⟩

/-- The key of a table is made of its columns. -/
theorem key_subset_of_check (h : t.check = .ok t) : ∀ column ∈ t.key, column ∈ t.columns := by
  have hfault := fault?_of_check h
  unfold fault? at hfault
  simp only at hfault
  split_ifs at hfault with hname hcolumns hunique hkey hunknown hinsert
  intro column hcolumn
  rw [Bool.not_eq_true, Bool.not_eq_false', List.isEmpty_iff, List.filter_eq_nil_iff] at hunknown
  simpa using hunknown column (List.mem_append_left _ hcolumn)

/-- The values of the keys that a value stands for: for each key its values of the key columns, in their order. -/
def keyValues (t : Table) (key : Value) : Except Failure (List (List Value)) :=
  (keysOf key).1.mapM fun k => t.key.mapM fun column => keyValue column k

/-- The names in a condition on keys. -/
def keyNames (t : Table) : List String := t.name :: t.key

theorem worded_keyColumn (h : column ∈ t.key) : Worded t.keyNames true (qualify t.name column) :=
  Worded.qualify List.mem_cons_self (List.mem_cons_of_mem _ h)

theorem columnIs_eq_ok (hc : column ∈ t.key) (h : t.columnIs column v = .ok c) :
    c.Named t.keyNames ∧ Param.ofValues [v] = .ok c.params :=
  ⟨Condition.named_compare (worded_keyColumn hc) (markFree_qualify _ _) h, (Condition.compare_eq_ok h).2⟩

/-- The entries of the key columns are the values that a dictionary gives them. -/
theorem mapM_column {entries : Dict} (id : Identity) {columns : List String} {parts : List (String × Value)}
    (h : columns.mapM (fun column => (Dict.column? entries column).map (column, ·)) = some parts) :
    parts.map (·.1) = columns ∧
      columns.mapM (fun column => keyValue column (.dict id entries)) = .ok (parts.map (·.2)) := by
  induction columns generalizing parts with
  | nil =>
    cases h
    exact ⟨rfl, rfl⟩
  | cons column columns ih =>
    rw [List.mapM_cons] at h
    obtain ⟨part, hpart, h⟩ := Option.bind_eq_some_iff.1 h
    obtain ⟨rest, hrest, h⟩ := Option.bind_eq_some_iff.1 h
    obtain rfl := Option.some.inj h
    obtain ⟨v, hv, rfl⟩ := Option.map_eq_some_iff.1 hpart
    obtain ⟨hfst, hsnd⟩ := ih hrest
    refine ⟨by rw [List.map_cons, hfst], ?_⟩
    rw [Outcome.mapM_cons, keyValue, hv, hsnd]
    rfl

theorem compositeKeyIs_eq_ok (h : t.compositeKeyIs key = .ok c) : c.Named t.keyNames ∧
    ∃ values, t.key.mapM (fun column => keyValue column key) = .ok values ∧ Param.ofValues values = .ok c.params := by
  cases key with
  | dict id entries =>
    simp only [compositeKeyIs] at h
    cases hparts : t.key.mapM fun column => (Dict.column? entries column).map (column, ·) with
    | none =>
      rw [hparts] at h
      cases h
    | some parts =>
      rw [hparts] at h
      obtain ⟨cs, hcs, h⟩ := Outcome.bind_eq_ok.1 h
      obtain ⟨hcolumns, hvalues⟩ := mapM_column id hparts
      have hpart : ∀ p ∈ parts, ∀ c', t.columnIs p.1 p.2 = .ok c' → c'.Named t.keyNames ∧
          ∃ vs, (.ok [p.2] : Except Failure (List Value)) = .ok vs ∧ Param.ofValues vs = .ok c'.params := by
        intro p hp c' hc'
        obtain ⟨hnamed, hps⟩ := columnIs_eq_ok (hcolumns ▸ List.mem_map_of_mem hp) hc'
        exact ⟨hnamed, [p.2], rfl, hps⟩
      obtain ⟨hnamed, values, hsingle, hps⟩ := Condition.named_mapM hpart hcs
      obtain ⟨hc, hparams⟩ := Condition.named_group (by decide) (by decide) hnamed h
      have hflat : values.flatten = parts.map (·.2) := by
        have hall : parts.mapM (fun p => (.ok [p.2] : Except Failure (List Value))) = .ok (parts.map fun p => [p.2]) :=
          List.mapM_pure
        obtain rfl := Except.ok.inj (hsingle.symm.trans hall)
        exact List.map_eq_flatMap.symm
      exact ⟨hc, _, hvalues, by rw [hparams, ← hflat, hps]⟩
  | _ => cases h

/-- What is no list of keys is one key. -/
theorem keysOf_one {keys : List Value} (h : keysOf key = (keys, false)) : keys = [key] := by
  cases key with
  | list | tuple => cases h
  | _ =>
    cases h
    rfl

theorem mapM_singleton {α β : Type} (f : α → Except Failure β) (a : α) : [a].mapM f = (f a).map ([·]) := by
  rw [Outcome.mapM_cons]
  cases f a <;> rfl

/-- A condition on keys has the names of the table in its text, and binds the values of the keys in order. -/
theorem keyCondition_eq_ok (h : t.keyCondition key = .ok c) : c.Named t.keyNames ∧
    ∃ values, t.keyValues key = .ok values ∧ Param.ofValues values.flatten = .ok c.params := by
  rw [keyCondition] at h
  rw [keyValues]
  cases hkeys : keysOf key with
  | mk keys many =>
    rw [hkeys] at h
    simp only at h
    split at h
    · -- values of the only key column
      rename_i column hcolumn
      obtain ⟨vs, hvs, h⟩ := Outcome.bind_eq_ok.1 h
      have hmem : column ∈ t.key := by simp [hcolumn]
      have hnamed := Condition.named_member (worded_keyColumn hmem) (markFree_qualify _ _) h
      obtain ⟨-, hps⟩ := Condition.member_eq_ok h
      have hflat : (vs.map ([·])).flatten = vs := List.flatMap_singleton' vs
      refine ⟨hnamed, vs.map ([·]), ?_, by rw [hflat, hps]⟩
      simp only [hcolumn, mapM_singleton]
      rw [Outcome.mapM_eq_ok, List.forall₂_map_right_iff]
      exact (Outcome.mapM_eq_ok.1 hvs).imp fun k v hv => by rw [hv]; rfl
    · -- one value of the only key column
      rename_i column hcolumn
      obtain rfl := keysOf_one hkeys
      obtain ⟨v, hv, h⟩ := Outcome.bind_eq_ok.1 h
      have hmem : column ∈ t.key := by simp [hcolumn]
      obtain ⟨hnamed, hps⟩ := columnIs_eq_ok hmem h
      refine ⟨hnamed, [[v]], ?_, hps⟩
      rw [mapM_singleton, hcolumn, mapM_singleton, hv]
      rfl
    · obtain ⟨cs, hcs, h⟩ := Outcome.bind_eq_ok.1 h
      have hone : ∀ k ∈ keys, ∀ c', t.compositeKeyIs k = .ok c' → _ := fun k _ c' => compositeKeyIs_eq_ok
      obtain ⟨hnamed, values, hvalues, hps⟩ := Condition.named_mapM hone hcs
      obtain ⟨hc, hparams⟩ := Condition.named_group (by decide) (by decide) hnamed h
      exact ⟨hc, values, hvalues, by rw [hparams, hps]⟩
    · obtain rfl := keysOf_one hkeys
      obtain ⟨hnamed, values, hvalues, hps⟩ := compositeKeyIs_eq_ok h
      refine ⟨hnamed, [values], ?_, by rwa [List.flatten_singleton]⟩
      rw [mapM_singleton, hvalues]
      rfl

end Table

end RecordSql
