import Mathlib.Order.ConditionallyCompleteLattice.Basic
import RecordSql.Proofs.Sql.Grouping
import RecordSql.Proofs.Table.Key
import RecordSql.Proofs.Value.Fields

/-!
# Records that keys match

A condition on keys is satisfied by the records that have one of the keys. What a condition says of a record is taken
from its text as it is read: an atom compares the cell of a column with a parameter, or with those of a list, and each
mark takes the next parameter.

* `Condition.Satisfied`: what a condition says of a record.
* `Table.KeyRefused`: why there may be no condition on keys.
* `Table.keyCondition_matches`: the condition on keys, in text, parameters and meaning, or the reason why there is none.
-/

namespace RecordSql

open Reading

/-! ### What conditions say -/

/-- What an atom with its parameters says of a record, whose cell under a column may have the value of a parameter: that
it has the value, or one of the values. -/
inductive AtomHolds (has : String → Param → Prop) : String → List Param → Prop
  | equal {column : String} {p : Param} : has column p → AtomHolds has (column ++ " = ?") [p]
  | member {column : String} {ps : List Param} {p : Param} : p ∈ ps → has column p →
    AtomHolds has (column ++ " IN (" ++ marks ps.length ++ ")") ps

/-- What an occurrence of an atom says, with as many parameters as it has marks, behind those of the atoms before it. -/
def OccurrenceHolds (has : String → Param → Prop) (atoms : List String) (params : List Param) (i : Nat) : Prop :=
  ∃ text, atoms[i]? = some text ∧
    AtomHolds has text ((params.drop (marksIn (atoms.take i))).take (marksOf text))

/-- What a condition says of a record. -/
def Condition.Satisfied (anyCase : Bool) (has : String → Param → Prop) (c : Condition) : Prop :=
  ∃ f, read anyCase c.text = some f ∧ f.truth (OccurrenceHolds has f.atoms c.params) 0

section Atoms

variable {has : String → Param → Prop} {column : String} {p : Param} {ps : List Param}

/-- A comparison ends with a mark, and a list with a parenthesis. -/
theorem equal_ne_member (column column' inside : String) : column ++ " = ?" ≠ column' ++ " IN (" ++ inside ++ ")" := by
  intro h
  have hlast := congrArg (·.toList.getLast?) h
  simp [String.toList_append, List.getLast?_cons] at hlast

theorem atomHolds_equal : AtomHolds has (column ++ " = ?") [p] ↔ has column p := by
  constructor
  · generalize htext : column ++ " = ?" = text
    generalize hps : [p] = ps
    rintro (h | ⟨-, -⟩)
    · obtain rfl := (String.append_left_inj _).1 htext
      obtain ⟨⟩ := hps
      exact h
    · exact absurd htext (equal_ne_member _ _ _)
  · exact .equal

theorem atomHolds_member :
    AtomHolds has (column ++ " IN (" ++ marks ps.length ++ ")") ps ↔ ∃ p ∈ ps, has column p := by
  constructor
  · generalize htext : column ++ " IN (" ++ marks ps.length ++ ")" = text
    rintro (h | ⟨hmem, h⟩)
    · exact absurd htext.symm (equal_ne_member _ _ _)
    · simp only [String.append_left_inj] at htext
      exact ⟨_, hmem, htext ▸ h⟩
  · rintro ⟨p, hmem, h⟩
    exact .member hmem h

end Atoms

section Occurrences

variable {has : String → Param → Prop} {atoms : List String} {params : List Param} {column : String} {p : Param}

theorem marksIn_of_one {texts : List String} (h : ∀ t ∈ texts, marksOf t = 1) : marksIn texts = texts.length := by
  induction texts with
  | nil => rfl
  | cons t ts ih =>
    obtain ⟨ht, hts⟩ := List.forall_mem_cons.1 h
    rw [marksIn, ht, ih hts, List.length_cons, Nat.add_comm]

/-- Where every atom has one mark, each goes with the parameter in its place. -/
theorem occurrenceHolds_iff (hone : ∀ t ∈ atoms, marksOf t = 1) {i : Nat} (ht : atoms[i]? = some (column ++ " = ?"))
    (hp : params[i]? = some p) : OccurrenceHolds has atoms params i ↔ has column p := by
  obtain ⟨hlt, htext⟩ := List.getElem?_eq_some_iff.1 ht
  obtain ⟨hlt', hparam⟩ := List.getElem?_eq_some_iff.1 hp
  have hbefore : marksIn (atoms.take i) = i := by
    rw [marksIn_of_one fun t ht => hone t (List.mem_of_mem_take ht), List.length_take,
      Nat.min_eq_left (Nat.le_of_lt hlt)]
  have hmark : marksOf (column ++ " = ?") = 1 := hone _ (htext ▸ List.getElem_mem hlt)
  have hslice : (params.drop i).take 1 = [p] := by
    rw [List.drop_eq_getElem_cons hlt', hparam]
    rfl
  rw [← @atomHolds_equal has column p, OccurrenceHolds]
  simp only [ht, Option.some.injEq, exists_eq_left', hbefore, hmark, hslice]

end Occurrences

section Satisfied

variable {anyCase : Bool} {has : String → Param → Prop} {c : Condition} {f : Formula}

theorem unpadded_of_ends {text : String} (hhead : text.toList.head?.any Text.isBlank = false)
    (hlast : text.toList.getLast?.any Text.isBlank = false) : unpadded text = text := by
  have hself : ∀ {cs : List Char}, cs.head?.any Text.isBlank = false → cs.dropWhile Text.isBlank = cs := by
    intro cs hcs
    cases cs with
    | nil => rfl
    | cons c cs => exact List.dropWhile_cons_of_neg (by simpa using hcs)
  rw [unpadded, Text.trim, Text.dropEnds, hself hhead, hself (by rwa [List.head?_reverse]), List.reverse_reverse,
    String.ofList_toList]

/-- What a condition says that is a formula with all groups in parentheses. -/
theorem satisfied_iff (htext : c.text = f.render) (hf : f.Filled (Atomic (Bare anyCase)))
    (htrim : ∀ t ∈ f.atoms, unpadded t = t) :
    c.Satisfied anyCase has ↔ f.truth (OccurrenceHolds has f.atoms c.params) 0 := by
  obtain ⟨g, hread, hatoms, htruth⟩ := reads_render hf
  replace hatoms : g.atoms = f.atoms := hatoms.trans ((List.map_congr_left htrim).trans (List.map_id' _))
  rw [Condition.Satisfied, htext]
  simp only [hread, Option.some.injEq, exists_eq_left']
  rw [hatoms, htruth]

end Satisfied

section Truth

variable (σ : Nat → Prop)

theorem meet_atoms (next : Nat) (texts : List String) :
    Formula.meet σ next (texts.map .atom) ↔ ∀ j < texts.length, σ (next + j) := by
  induction texts generalizing next with
  | nil => exact iff_of_true trivial (by simp)
  | cons t ts ih =>
    rw [List.length_cons, Nat.forall_lt_succ_left]
    refine and_congr Iff.rfl ((ih (next + 1)).trans ?_)
    simp only [Nat.add_assoc, Nat.add_comm 1]

theorem join_replicate (next count : Nat) (f : Formula) : Formula.join σ next (List.replicate count f) ↔
    ∃ i < count, f.truth σ (next + i * f.atoms.length) := by
  induction count generalizing next with
  | zero => exact iff_of_false id (by simp)
  | succ count ih =>
    rw [Nat.exists_lt_succ_left]
    refine or_congr (by simp) ((ih (next + f.atoms.length)).trans ?_)
    simp only [Nat.add_assoc, Nat.add_mul, Nat.one_mul, Nat.add_comm]

end Truth

namespace Table

/-! ### Texts and parameters of keys -/

/-- What is asked of a key column. -/
def keyAtom (t : Table) (column : String) : String := qualify t.name column ++ " = ?"

/-- What is asked for a key of several columns. -/
def keyGroup (t : Table) : String := "(" ++ String.intercalate " AND " (t.key.map t.keyAtom) ++ ")"

/-- The text of the condition on one key, or on a list of keys of a given length. -/
def keyText (t : Table) (many : Bool) (count : Nat) : String :=
  match t.key, many with
  | [column], true => qualify t.name column ++ " IN (" ++ marks count ++ ")"
  | [column], false => t.keyAtom column
  | _, true => "(" ++ String.intercalate " OR " (List.replicate count t.keyGroup) ++ ")"
  | _, false => t.keyGroup

/-- The parameters of a key: for each key column that of the value that the key gives it. -/
def OneKeyParams (t : Table) (k : Value) (ps : List Param) : Prop :=
  List.Forall₂ (fun column p => ∃ v, keyValue column k = .ok v ∧ Param.ofValue v = .ok p) t.key ps

/-- The parameters of keys, key by key. -/
def KeyParams (t : Table) (key : Value) (pss : List (List Param)) : Prop :=
  List.Forall₂ t.OneKeyParams (keysOf key).1 pss

/-- A key is a dictionary of all key columns. -/
def Complete (t : Table) (k : Value) : Prop :=
  ∃ id entries, k = .dict id entries ∧ ∀ column ∈ t.key, ∃ v, Dict.column? entries column = some v

/-- Why there is no condition on keys: there is no key; a key of several columns is not a dictionary of all of them; a
dictionary lacks the only key column; or a value cannot be bound. -/
inductive KeyRefused (t : Table) (key : Value) : Failure → Prop
  | noKey : (keysOf key).1 = [] → KeyRefused t key (.conditionRequired (if t.key.length = 1 then "IN" else "OR"))
  | incomplete {k : Value} : 2 ≤ t.key.length → k ∈ (keysOf key).1 → ¬ t.Complete k →
    KeyRefused t key (.tableDefinition t.name
      ("composite key values must map every key column " ++ Value.literalOfTexts t.key))
  | lacking {id : Identity} {entries : Dict} {column : String} : t.key = [column] →
    .dict id entries ∈ (keysOf key).1 → Dict.column? entries column = none → KeyRefused t key (.absentColumn column)
  | unsupported {k v : Value} {column : String} {e : Failure} : k ∈ (keysOf key).1 → column ∈ t.key →
    keyValue column k = .ok v → Param.ofValue v = .error e → KeyRefused t key e

variable {t : Table} {key k v : Value} {c : Condition} {column : String} {ps : List Param} {pss : List (List Param)}

theorem columnIs_text (h : t.columnIs column v = .ok c) : c.text = t.keyAtom column := by
  rw [(Condition.compare_eq_ok h).1, keyAtom]
  simp only [String.append_assoc]
  rfl

/-- The values of keys are bound key by key. -/
theorem exists_keyParams {values : List (List Value)} {params : List Param} (hvalues : t.keyValues key = .ok values)
    (hps : Param.ofValues values.flatten = .ok params) : ∃ pss, t.KeyParams key pss ∧ params = pss.flatten := by
  replace hvalues := Outcome.mapM_eq_ok.1 hvalues
  unfold KeyParams
  generalize (keysOf key).1 = keys at hvalues ⊢
  induction hvalues generalizing params with
  | nil =>
    cases hps
    exact ⟨[], .nil, rfl⟩
  | @cons k vs keys values hk _ ih =>
    obtain ⟨ps, rest, hone, hrest, rfl⟩ := Param.ofValues_append.1 hps
    obtain ⟨pss, hpss, rfl⟩ := ih hrest
    refine ⟨ps :: pss, .cons ?_ hpss, rfl⟩
    have hcolumns := Outcome.mapM_eq_ok.1 hk
    have hbound := Outcome.mapM_eq_ok.1 hone
    clear hk hone hps ih hpss hrest
    unfold OneKeyParams
    generalize t.key = columns at hcolumns
    induction hcolumns generalizing ps with
    | nil =>
      cases hbound
      exact .nil
    | cons hv _ ih =>
      cases hbound with
      | cons hp hrest => exact .cons ⟨_, hv, hp⟩ (ih _ hrest)

/-! ### Keys of several columns -/

/-- A dictionary has all key columns if it gives each of them a value. -/
theorem exists_parts_iff {entries : Dict} {columns : List String} :
    (∃ parts, columns.mapM (fun column => (Dict.column? entries column).map (column, ·)) = some parts) ↔
      ∀ column ∈ columns, ∃ v, Dict.column? entries column = some v := by
  induction columns with
  | nil => simp
  | cons column columns ih =>
    rw [List.forall_mem_cons, ← ih, List.mapM_cons]
    constructor
    · rintro ⟨_, h⟩
      obtain ⟨_, hpart, h⟩ := Option.bind_eq_some_iff.1 h
      obtain ⟨parts, hparts, -⟩ := Option.bind_eq_some_iff.1 h
      obtain ⟨v, hv, -⟩ := Option.map_eq_some_iff.1 hpart
      exact ⟨⟨v, hv⟩, parts, hparts⟩
    · rintro ⟨⟨v, hv⟩, parts, hparts⟩
      exact ⟨(column, v) :: parts, by rw [hv, hparts]; rfl⟩

/-- Conditions with given texts, one for each item. -/
theorem map_text_of_mapM {α : Type} {f : α → Except Failure Condition} {g : α → String} {l : List α}
    {cs : List Condition} (hfg : ∀ a ∈ l, ∀ c, f a = .ok c → c.text = g a) (h : l.mapM f = .ok cs) :
    cs.map Fragment.text = l.map g := by
  replace h := Outcome.mapM_eq_ok.1 h
  induction h with
  | nil => rfl
  | cons ha _ ih =>
    obtain ⟨hg, hrest⟩ := List.forall_mem_cons.1 hfg
    rw [List.map_cons, List.map_cons, hg _ ha, ih hrest]

/-- A condition on a key of several columns is made from a dictionary of all of them. -/
theorem compositeKeyIs_ok (h : t.compositeKeyIs k = .ok c) : t.Complete k ∧ c.text = t.keyGroup := by
  cases k with
  | dict id entries =>
    simp only [compositeKeyIs] at h
    split at h
    · cases h
    · rename_i parts hparts
      obtain ⟨cs, hcs, h⟩ := Outcome.bind_eq_ok.1 h
      refine ⟨⟨id, entries, rfl, exists_parts_iff.1 ⟨parts, hparts⟩⟩, ?_⟩
      have htexts : cs.map Fragment.text = parts.map fun part => t.keyAtom part.1 :=
        map_text_of_mapM (fun part _ c => columnIs_text) hcs
      rw [(Condition.group_eq_ok h).1, htexts, keyGroup, ← (mapM_column id hparts).1, List.map_map]
      rfl
  | _ => cases h

/-- Only a group of nothing is refused. -/
theorem eq_nil_of_group {keyword : String} {cs : List Condition} {e : Failure}
    (h : Condition.group keyword cs = .error e) : cs = [] ∧ e = .conditionRequired keyword := by
  unfold Condition.group at h
  split at h
  · exact ⟨List.isEmpty_iff.1 ‹_›, (Except.error.inj h).symm⟩
  · cases h

/-- There is none on a key that is no dictionary of all key columns, or that has a value that cannot be bound. -/
theorem compositeKeyIs_error {e : Failure} (hne : t.key ≠ []) (h : t.compositeKeyIs k = .error e) :
    (¬ t.Complete k ∧ e = .tableDefinition t.name
      ("composite key values must map every key column " ++ Value.literalOfTexts t.key)) ∨
    ∃ column ∈ t.key, ∃ v, keyValue column k = .ok v ∧ Param.ofValue v = .error e := by
  cases k with
  | dict id entries =>
    simp only [compositeKeyIs] at h
    split at h
    · rename_i hparts
      refine .inl ⟨?_, (Except.error.inj h).symm⟩
      rintro ⟨id', entries', hdict, hall⟩
      obtain ⟨rfl, rfl⟩ := Value.dict.inj hdict
      obtain ⟨parts, hsome⟩ := exists_parts_iff.2 hall
      rw [hparts] at hsome
      cases hsome
    · rename_i parts hparts
      obtain ⟨hcolumns, hvalues⟩ := mapM_column id hparts
      have hvalue : ∀ part ∈ parts, keyValue part.1 (.dict id entries) = .ok part.2 := by
        rw [← hcolumns, Outcome.mapM_eq_ok, List.forall₂_map_left_iff, List.forall₂_map_right_iff,
          List.forall₂_same] at hvalues
        exact hvalues
      cases hcs : parts.mapM fun part => t.columnIs part.1 part.2 with
      | ok cs =>
        have hall : Condition.allOf cs = .error e := by
          rw [← h]
          exact (congrArg (· >>= Condition.allOf) hcs).symm
        obtain ⟨rfl, -⟩ := eq_nil_of_group hall
        obtain rfl : parts = [] := List.length_eq_zero_iff.1 (Outcome.mapM_eq_ok.1 hcs).length_eq
        exact absurd hcolumns.symm hne
      | error e' =>
        obtain rfl : e' = e := by
          have herror : (Except.error e' : Except Failure Condition) = .error e := by
            rw [← h]
            exact (congrArg (· >>= Condition.allOf) hcs).symm
          exact Except.error.inj herror
        obtain ⟨part, hpart, he⟩ := Outcome.of_mapM_eq_error hcs
        exact .inr ⟨part.1, hcolumns ▸ List.mem_map_of_mem hpart, part.2, hvalue part hpart, Outcome.map_eq_error.1 he⟩
  | _ =>
    refine .inl ⟨?_, (Except.error.inj h).symm⟩
    rintro ⟨id, entries, hdict, -⟩
    cases hdict

/-! ### Conditions on keys -/

section Shapes

/-- Whether there is one key column, or several. -/
theorem single_or_several (hne : t.key ≠ []) : (∃ column, t.key = [column]) ∨ ∃ a b rest, t.key = a :: b :: rest := by
  match h : t.key with
  | [] => exact absurd h hne
  | [column] => exact .inl ⟨column, rfl⟩
  | a :: b :: rest => exact .inr ⟨a, b, rest, rfl⟩

variable {keys : List Value} {many : Bool} (hkeys : keysOf key = (keys, many))

include hkeys

theorem keyCondition_single (hcolumn : t.key = [column]) : t.keyCondition key =
    if many then keys.mapM (keyValue column) >>= Condition.member (qualify t.name column)
    else keyValue column key >>= t.columnIs column := by
  rw [keyCondition, hkeys]
  simp only [hcolumn]
  cases many <;> rfl

theorem keyCondition_several {a b : String} {rest : List String} (hseveral : t.key = a :: b :: rest) :
    t.keyCondition key = if many then keys.mapM t.compositeKeyIs >>= Condition.anyOf else t.compositeKeyIs key := by
  rw [keyCondition, hkeys]
  simp only [hseveral]
  cases many <;> rfl

end Shapes

/-- The text of a condition on keys. There is a key, and keys of several columns are complete. -/
theorem keyCondition_ok (hne : t.key ≠ []) (h : t.keyCondition key = .ok c) :
    c.text = t.keyText (keysOf key).2 (keysOf key).1.length ∧ (keysOf key).1 ≠ [] ∧
      (2 ≤ t.key.length → ∀ k ∈ (keysOf key).1, t.Complete k) := by
  obtain ⟨keys, many, hkeys⟩ : ∃ keys many, keysOf key = (keys, many) := ⟨_, _, rfl⟩
  rw [hkeys]
  rcases single_or_several hne with ⟨column, hcolumn⟩ | ⟨a, b, rest, hseveral⟩
  · have htwo : ¬ 2 ≤ t.key.length := by simp [hcolumn]
    rw [keyCondition_single hkeys hcolumn] at h
    simp only [keyText, hcolumn]
    cases many with
    | true =>
      obtain ⟨vs, hvs, h⟩ := Outcome.bind_eq_ok.1 h
      have hlength := (Outcome.mapM_eq_ok.1 hvs).length_eq
      refine ⟨by rw [(Condition.member_eq_ok h).1, hlength], ?_, fun htwo' => absurd (hcolumn ▸ htwo') htwo⟩
      rintro rfl
      cases hvs
      cases h
    | false =>
      obtain rfl := keysOf_one hkeys
      obtain ⟨v, -, h⟩ := Outcome.bind_eq_ok.1 h
      exact ⟨columnIs_text h, List.cons_ne_nil _ _, fun htwo' => absurd (hcolumn ▸ htwo') htwo⟩
  · rw [keyCondition_several hkeys hseveral] at h
    simp only [keyText, hseveral]
    cases many with
    | true =>
      obtain ⟨cs, hcs, h⟩ := Outcome.bind_eq_ok.1 h
      have htexts : cs.map Fragment.text = List.replicate keys.length t.keyGroup := by
        rw [← List.map_const']
        exact map_text_of_mapM (fun k _ c hc => (compositeKeyIs_ok hc).2) hcs
      refine ⟨by rw [(Condition.group_eq_ok h).1, htexts]; rfl, ?_, fun _ k hk => ?_⟩
      · rintro rfl
        cases hcs
        cases h
      · obtain ⟨c', hc'⟩ := Outcome.exists_mapM_eq_ok.1 ⟨cs, hcs⟩ k hk
        exact (compositeKeyIs_ok hc').1
    | false =>
      obtain rfl := keysOf_one hkeys
      obtain ⟨hcomplete, htext⟩ := compositeKeyIs_ok h
      exact ⟨htext, List.cons_ne_nil _ _, fun _ k hk => List.mem_singleton.1 hk ▸ hcomplete⟩

theorem keyValue_error {e : Failure} (h : keyValue column k = .error e) :
    ∃ id entries, k = .dict id entries ∧ Dict.column? entries column = none ∧ e = .absentColumn column := by
  cases k with
  | dict id entries =>
    simp only [keyValue] at h
    split at h
    · cases h
    · exact ⟨id, entries, rfl, ‹_›, (Except.error.inj h).symm⟩
  | _ => cases h

theorem member_error {values : List Value} {e : Failure} (h : Condition.member column values = .error e) :
    (values = [] ∧ e = .conditionRequired "IN") ∨ ∃ v ∈ values, Param.ofValue v = .error e := by
  unfold Condition.member at h
  cases hps : Param.ofValues values with
  | error e' =>
    rw [hps] at h
    obtain rfl := Except.error.inj h
    exact .inr (Outcome.of_mapM_eq_error hps)
  | ok params =>
    rw [hps, Outcome.ok_bind] at h
    split at h
    · rename_i hempty
      obtain rfl := List.isEmpty_iff.1 hempty
      exact .inl ⟨List.length_eq_zero_iff.1 (Param.length_ofValues hps).symm, (Except.error.inj h).symm⟩
    · cases h

theorem KeyRefused.of_composite {e : Failure} (htwo : 2 ≤ t.key.length) (hk : k ∈ (keysOf key).1)
    (h : t.compositeKeyIs k = .error e) : t.KeyRefused key e := by
  have hne : t.key ≠ [] := by
    rintro hnil
    simp [hnil] at htwo
  rcases compositeKeyIs_error hne h with ⟨hcomplete, rfl⟩ | ⟨column, hcolumn, v, hv, he⟩
  · exact .incomplete htwo hk hcomplete
  · exact .unsupported hk hcolumn hv he

section Refusals

variable {e : Failure} {keys : List Value} {many : Bool} (hkeys : keysOf key = (keys, many))

include hkeys

theorem keyCondition_single_error (hcolumn : t.key = [column]) (h : t.keyCondition key = .error e) :
    t.KeyRefused key e := by
  have hmem : ∀ k ∈ keys, k ∈ (keysOf key).1 := fun k hk => by rwa [hkeys]
  have hcolumns : column ∈ t.key := by simp [hcolumn]
  have hlacking : ∀ k ∈ keys, ∀ e, keyValue column k = .error e → t.KeyRefused key e := by
    intro k hk e he
    obtain ⟨id, entries, rfl, hnone, rfl⟩ := keyValue_error he
    exact .lacking hcolumn (hmem _ hk) hnone
  rw [keyCondition_single hkeys hcolumn] at h
  cases many with
  | true =>
    rw [if_pos rfl] at h
    cases hvs : keys.mapM (keyValue column) with
    | error e' =>
      rw [hvs] at h
      obtain rfl := Except.error.inj h
      obtain ⟨k, hk, he⟩ := Outcome.of_mapM_eq_error hvs
      exact hlacking k hk _ he
    | ok vs =>
      rw [hvs, Outcome.ok_bind] at h
      rcases member_error h with ⟨rfl, rfl⟩ | ⟨v, hv, he⟩
      · obtain rfl := List.length_eq_zero_iff.1 (Outcome.mapM_eq_ok.1 hvs).length_eq
        have hrefused : t.KeyRefused key _ := .noKey (by rw [hkeys])
        rwa [hcolumn] at hrefused
      · obtain ⟨k, hk, hkv⟩ := Outcome.of_mem_of_mapM_eq_ok hvs hv
        exact .unsupported (hmem k hk) hcolumns hkv he
  | false =>
    obtain rfl := keysOf_one hkeys
    rw [if_neg Bool.false_ne_true] at h
    cases hv : keyValue column key with
    | error e' =>
      rw [hv] at h
      obtain rfl := Except.error.inj h
      exact hlacking key (List.mem_singleton_self _) _ hv
    | ok v =>
      rw [hv, Outcome.ok_bind] at h
      exact .unsupported (hmem key (List.mem_singleton_self _)) hcolumns hv (Outcome.map_eq_error.1 h)

theorem keyCondition_several_error {a b : String} {rest : List String} (hseveral : t.key = a :: b :: rest)
    (h : t.keyCondition key = .error e) : t.KeyRefused key e := by
  have hmem : ∀ k ∈ keys, k ∈ (keysOf key).1 := fun k hk => by rwa [hkeys]
  have htwo : 2 ≤ t.key.length := by simp [hseveral]
  rw [keyCondition_several hkeys hseveral] at h
  cases many with
  | true =>
    rw [if_pos rfl] at h
    cases hcs : keys.mapM t.compositeKeyIs with
    | error e' =>
      rw [hcs] at h
      obtain rfl := Except.error.inj h
      obtain ⟨k, hk, he⟩ := Outcome.of_mapM_eq_error hcs
      exact .of_composite htwo (hmem k hk) he
    | ok cs =>
      rw [hcs, Outcome.ok_bind] at h
      obtain ⟨rfl, rfl⟩ := eq_nil_of_group h
      obtain rfl := List.length_eq_zero_iff.1 (Outcome.mapM_eq_ok.1 hcs).length_eq
      have hrefused : t.KeyRefused key _ := .noKey (by rw [hkeys])
      rwa [if_neg (by omega)] at hrefused
  | false =>
    obtain rfl := keysOf_one hkeys
    exact .of_composite htwo (hmem key (List.mem_singleton_self _)) h

end Refusals

/-- There is no condition on keys for one of the reasons only. -/
theorem keyCondition_error {e : Failure} (hne : t.key ≠ []) (h : t.keyCondition key = .error e) :
    t.KeyRefused key e := by
  rcases single_or_several hne with ⟨column, hcolumn⟩ | ⟨a, b, rest, hseveral⟩
  · exact keyCondition_single_error rfl hcolumn h
  · exact keyCondition_several_error rfl hseveral h

theorem exists_of_forall₂ {α β : Type} {R : α → β → Prop} {l : List α} {l' : List β} {a : α} (h : List.Forall₂ R l l')
    (ha : a ∈ l) : ∃ b, R a b := by
  induction h with
  | nil => cases ha
  | cons hR _ ih =>
    rcases List.mem_cons.1 ha with rfl | ha
    · exact ⟨_, hR⟩
    · exact ih ha

/-- Keys with parameters, that are there and complete, are not refused. -/
theorem not_refused {e : Failure} (hpss : t.KeyParams key pss) (hkeys : (keysOf key).1 ≠ [])
    (hcomplete : 2 ≤ t.key.length → ∀ k ∈ (keysOf key).1, t.Complete k) : ¬ t.KeyRefused key e := by
  have hparam : ∀ k ∈ (keysOf key).1, ∀ column ∈ t.key, ∃ p v, keyValue column k = .ok v ∧ Param.ofValue v = .ok p := by
    intro k hk column hcolumn
    obtain ⟨ps, hps⟩ := exists_of_forall₂ hpss hk
    exact exists_of_forall₂ hps hcolumn
  rintro (hempty | ⟨htwo, hk, hincomplete⟩ | ⟨hcolumn, hk, hnone⟩ | ⟨hk, hcolumn, hv, he⟩)
  · exact hkeys hempty
  · exact hincomplete (hcomplete htwo _ hk)
  · obtain ⟨p, v, hv, -⟩ := hparam _ hk _ (hcolumn ▸ List.mem_singleton_self _)
    rw [keyValue, hnone] at hv
    cases hv
  · obtain ⟨p, v', hv', hp⟩ := hparam _ hk _ hcolumn
    obtain rfl := Except.ok.inj (hv.symm.trans hv')
    rw [hp] at he
    cases he

/-! ### The meaning of conditions on keys -/

/-- A record has a key: every key column has the value of its parameter. -/
def HasKey (t : Table) (has : String → Param → Prop) (ps : List Param) : Prop :=
  List.Forall₂ (fun column p => has (qualify t.name column) p) t.key ps

section Meaning

variable {anyCase : Bool} {has : String → Param → Prop}

theorem atomic_keyAtom (anyCase : Bool) (t : Table) (column : String) : Atomic (Bare anyCase) (t.keyAtom column) := by
  have hmark : Bare anyCase " = ?" := by cases anyCase <;> decide
  exact .inl ((bare_qualify anyCase t.name column).append hmark (.inr (by decide)))

theorem atomic_member (anyCase : Bool) (t : Table) (column : String) (count : Nat) :
    Atomic (Bare anyCase) (qualify t.name column ++ " IN (" ++ marks count ++ ")") := by
  have hin : Bare anyCase " IN " := by cases anyCase <;> decide
  refine .inr ⟨qualify t.name column ++ " IN ", marks count, ?_,
    (bare_qualify anyCase t.name column).append hin (.inr (by decide)), ?_, (plain_marks anyCase count).bare⟩
  · simp only [String.append_assoc]
    rfl
  · rw [String.toList_append, List.all_append]
    exact Bool.and_false _

theorem head_qualify (t : Table) (column rest : String) :
    (qualify t.name column ++ rest).toList.head?.any Text.isBlank = false := by
  rw [qualify, quoteName]
  simp only [String.toList_append, String.toList_ofList, List.cons_append, List.head?_cons, Option.any_some]
  rfl

theorem marksOf_keyAtom (t : Table) (column : String) : marksOf (t.keyAtom column) = 1 := by
  have hqualify := markFree_qualify t.name column
  rw [keyAtom, marksOf_append hqualify.1, hqualify.2]
  decide

theorem unpadded_keyAtom (t : Table) (column : String) : unpadded (t.keyAtom column) = t.keyAtom column := by
  refine unpadded_of_ends (head_qualify t column _) ?_
  rw [keyAtom, String.toList_append, List.getLast?_append]
  rfl

/-- The condition on one key of several columns as a formula. -/
def keyFormula (t : Table) : Formula := .allOf ((t.key.map t.keyAtom).map .atom)

theorem atoms_keyFormula (t : Table) : t.keyFormula.atoms = t.key.map t.keyAtom := by
  rw [keyFormula, Formula.atoms, Formula.atomsAll_eq_flatMap, List.flatMap_map]
  exact List.flatMap_singleton' _

theorem render_keyFormula (t : Table) : t.keyFormula.render = t.keyGroup := by
  have hatoms : (t.key.map t.keyAtom).map (Formula.render ∘ .atom) = t.key.map t.keyAtom := List.map_id' _
  rw [keyFormula, Formula.render, Formula.renderAll_eq_map, List.map_map, hatoms, keyGroup]

theorem filled_keyFormula (hne : t.key ≠ []) (anyCase : Bool) : t.keyFormula.Filled (Atomic (Bare anyCase)) := by
  refine ⟨by simpa using hne, Formula.filledAll_iff.2 fun f hf => ?_⟩
  rw [List.map_map] at hf
  obtain ⟨column, -, rfl⟩ := List.mem_map.1 hf
  exact atomic_keyAtom anyCase t column

theorem truth_keyFormula (t : Table) (σ : Nat → Prop) (next : Nat) :
    t.keyFormula.truth σ next ↔ ∀ j < t.key.length, σ (next + j) := by
  rw [keyFormula, Formula.truth, meet_atoms, List.length_map]

/-- What is asked for a number of keys. -/
def keyAtoms (t : Table) (count : Nat) : List String := (List.replicate count (t.key.map t.keyAtom)).flatten

theorem exists_of_mem_keyAtoms {count : Nat} {text : String} (h : text ∈ t.keyAtoms count) :
    ∃ column, text = t.keyAtom column := by
  obtain ⟨texts, htexts, h⟩ := List.mem_flatten.1 h
  rw [List.eq_of_mem_replicate htexts] at h
  obtain ⟨column, -, rfl⟩ := List.mem_map.1 h
  exact ⟨column, rfl⟩

theorem unpadded_of_mem_keyAtoms {count : Nat} : ∀ text ∈ t.keyAtoms count, unpadded text = text := by
  intro text h
  obtain ⟨column, rfl⟩ := exists_of_mem_keyAtoms h
  exact unpadded_keyAtom t column

theorem keyAtoms_one (t : Table) : t.keyAtoms 1 = t.key.map t.keyAtom := List.flatten_singleton

theorem getElem?_flatten_uniform {α : Type} {xss : List (List α)} {m : Nat} (h : ∀ xs ∈ xss, xs.length = m) {i j : Nat}
    (hj : j < m) : xss.flatten[i * m + j]? = (xss[i]?).bind (·[j]?) := by
  induction xss generalizing i with
  | nil => rfl
  | cons xs xss ih =>
    obtain ⟨hxs, hxss⟩ := List.forall_mem_cons.1 h
    rw [List.flatten_cons]
    cases i with
    | zero =>
      rw [Nat.zero_mul, Nat.zero_add, List.getElem?_append_left (by omega)]
      rfl
    | succ i =>
      have hsub : (i + 1) * m + j - xs.length = i * m + j := by
        rw [hxs, Nat.add_mul, Nat.one_mul]
        omega
      rw [List.getElem?_append_right (by rw [hxs, Nat.add_mul, Nat.one_mul]; omega), hsub, ih hxss]
      rfl

/-- The atoms of a key hold if the record has the key. -/
theorem occurrences_iff (hlength : ∀ ps ∈ pss, ps.length = t.key.length) {i : Nat} (hi : pss[i]? = some ps) :
    (∀ j < t.key.length, OccurrenceHolds has (t.keyAtoms pss.length) pss.flatten (i * t.key.length + j)) ↔
      t.HasKey has ps := by
  obtain ⟨hlt, hps⟩ := List.getElem?_eq_some_iff.1 hi
  have hm : ps.length = t.key.length := hlength ps (hps ▸ List.getElem_mem hlt)
  have hone : ∀ text ∈ t.keyAtoms pss.length, marksOf text = 1 := by
    intro text htext
    obtain ⟨column, rfl⟩ := exists_of_mem_keyAtoms htext
    exact marksOf_keyAtom t column
  -- an occurrence is that of a key column in a key, and so is the parameter in its place
  have hat : ∀ j (hj : j < t.key.length) (hj' : j < ps.length), OccurrenceHolds has (t.keyAtoms pss.length) pss.flatten
      (i * t.key.length + j) ↔ has (qualify t.name t.key[j]) ps[j] := by
    intro j hj hj'
    refine occurrenceHolds_iff hone ?_ ?_
    · rw [keyAtoms, getElem?_flatten_uniform (by simp +contextual) hj, List.getElem?_replicate, if_pos hlt,
        Option.bind_some, List.getElem?_map, List.getElem?_eq_getElem hj]
      rfl
    · rw [getElem?_flatten_uniform hlength hj, hi, Option.bind_some, List.getElem?_eq_getElem hj']
  rw [HasKey, List.forall₂_iff_get]
  constructor
  · exact fun h => ⟨hm.symm, fun j hj hj' => (hat j hj hj').1 (h j hj)⟩
  · exact fun h j hj => (hat j hj (hm ▸ hj)).2 (h.2 j hj (hm ▸ hj))

/-- The condition on a key of several columns says that the record has the key. -/
theorem satisfied_keyGroup (hne : t.key ≠ []) (hlength : ps.length = t.key.length) (hparams : c.params = ps)
    (htext : c.text = t.keyGroup) : c.Satisfied anyCase has ↔ t.HasKey has ps := by
  have hatoms : t.keyFormula.atoms = t.keyAtoms 1 := (atoms_keyFormula t).trans (keyAtoms_one t).symm
  have hone : ∀ ps' ∈ [ps], ps'.length = t.key.length := List.forall_mem_singleton.2 hlength
  rw [satisfied_iff (htext.trans (render_keyFormula t).symm) (filled_keyFormula hne anyCase)
    (hatoms ▸ unpadded_of_mem_keyAtoms), hatoms, hparams, truth_keyFormula, ← occurrences_iff hone (i := 0) rfl,
    List.flatten_singleton, Nat.zero_mul]
  rfl

/-- The condition on a list of keys of several columns says that the record has one of them. -/
theorem satisfied_keyGroups (hne : t.key ≠ []) (hlength : ∀ ps ∈ pss, ps.length = t.key.length) (hpss : pss ≠ [])
    (hparams : c.params = pss.flatten)
    (htext : c.text = "(" ++ String.intercalate " OR " (List.replicate pss.length t.keyGroup) ++ ")") :
    c.Satisfied anyCase has ↔ ∃ ps ∈ pss, t.HasKey has ps := by
  let f : Formula := .anyOf (List.replicate pss.length t.keyFormula)
  have hatoms : f.atoms = t.keyAtoms pss.length := by
    rw [Formula.atoms, Formula.atomsAll_eq_flatMap, List.flatMap_replicate, atoms_keyFormula, keyAtoms]
  have hrender : f.render = c.text := by
    rw [htext, Formula.render, Formula.renderAll_eq_map, List.map_replicate, render_keyFormula]
  have hfilled : f.Filled (Atomic (Bare anyCase)) := by
    refine ⟨by simpa using hpss, Formula.filledAll_iff.2 fun g hg => ?_⟩
    exact List.eq_of_mem_replicate hg ▸ filled_keyFormula hne anyCase
  rw [satisfied_iff hrender.symm hfilled (hatoms ▸ unpadded_of_mem_keyAtoms), hatoms, hparams, Formula.truth,
    join_replicate]
  simp only [truth_keyFormula, atoms_keyFormula, List.length_map, Nat.zero_add]
  constructor
  · rintro ⟨i, hi, h⟩
    exact ⟨pss[i], List.getElem_mem hi, (occurrences_iff hlength (List.getElem?_eq_getElem hi)).1 h⟩
  · rintro ⟨ps, hmem, h⟩
    obtain ⟨i, hi, rfl⟩ := List.mem_iff_getElem.1 hmem
    exact ⟨i, hi, (occurrences_iff hlength (List.getElem?_eq_getElem hi)).2 h⟩

/-- The condition on a value of the only key column says that the record has it. -/
theorem satisfied_keyAtom {p : Param} (hcolumn : t.key = [column]) (hparams : c.params = [p])
    (htext : c.text = t.keyAtom column) : c.Satisfied anyCase has ↔ t.HasKey has [p] := by
  have hatoms : (Formula.atom (t.keyAtom column)).atoms = [t.keyAtom column] := rfl
  have hholds : OccurrenceHolds has [t.keyAtom column] [p] 0 ↔ has (qualify t.name column) p :=
    occurrenceHolds_iff (List.forall_mem_singleton.2 (marksOf_keyAtom t column)) rfl rfl
  rw [satisfied_iff (f := .atom (t.keyAtom column)) htext (atomic_keyAtom anyCase t column)
    (List.forall_mem_singleton.2 (unpadded_keyAtom t column)), hatoms, hparams, Formula.truth, hholds, HasKey, hcolumn,
    List.forall₂_cons]
  simp

/-- The condition on a list of values of the only key column says that the record has one of them. -/
theorem satisfied_member (hcolumn : t.key = [column]) (hparams : c.params = ps)
    (htext : c.text = qualify t.name column ++ " IN (" ++ marks ps.length ++ ")") :
    c.Satisfied anyCase has ↔ ∃ p ∈ ps, t.HasKey has [p] := by
  have htrim : unpadded c.text = c.text := by
    refine unpadded_of_ends ?_ ?_
    · rw [htext, String.append_assoc, String.append_assoc]
      exact head_qualify t column _
    · rw [htext, String.toList_append, List.getLast?_append]
      rfl
  have hfree : MarkFree (qualify t.name column ++ " IN (") := (markFree_qualify t.name column).append (by decide)
  have hmarks : marksOf c.text = ps.length := by
    rw [htext]
    exact (((Fragment.balanced_marks ps).prepend hfree).append (by decide)).2
  have hholds : OccurrenceHolds has [c.text] ps 0 ↔ ∃ p ∈ ps, has (qualify t.name column) p := by
    have hnone : marksIn ([] : List String) = 0 := rfl
    rw [← atomHolds_member, ← htext, OccurrenceHolds]
    simp only [List.getElem?_cons_zero, Option.some.injEq, exists_eq_left', List.take_zero, hnone, List.drop_zero,
      hmarks, List.take_length]
  have hone : ∀ p, t.HasKey has [p] ↔ has (qualify t.name column) p := by simp [HasKey, hcolumn]
  rw [satisfied_iff (f := .atom c.text) rfl (htext ▸ atomic_member anyCase t column ps.length)
    (List.forall_mem_singleton.2 htrim), Formula.atoms, Formula.truth, hparams, hholds]
  simp only [hone]

/-- Parameters of keys of one column are parameters one by one. -/
theorem exists_eq_singletons (h : ∀ ps ∈ pss, ps.length = 1) : ∃ ps : List Param, pss = ps.map ([·]) := by
  induction pss with
  | nil => exact ⟨[], rfl⟩
  | cons ps pss ih =>
    obtain ⟨hps, hpss⟩ := List.forall_mem_cons.1 h
    obtain ⟨p, rfl⟩ := List.length_eq_one_iff.1 hps
    obtain ⟨ps, rfl⟩ := ih hpss
    exact ⟨p :: ps, rfl⟩

theorem KeyParams.lengths (h : t.KeyParams key pss) :
    pss.length = (keysOf key).1.length ∧ ∀ ps ∈ pss, ps.length = t.key.length := by
  refine ⟨h.length_eq.symm, fun ps hps => ?_⟩
  obtain ⟨k, hk⟩ := exists_of_forall₂ h.flip hps
  exact hk.length_eq.symm

/-- What a condition says that has the text and the parameters of keys. -/
theorem satisfied_keyText (hne : t.key ≠ []) (hkeys : (keysOf key).1 ≠ []) (hpss : t.KeyParams key pss)
    (hparams : c.params = pss.flatten) (htext : c.text = t.keyText (keysOf key).2 (keysOf key).1.length) :
    c.Satisfied anyCase has ↔ ∃ ps ∈ pss, t.HasKey has ps := by
  obtain ⟨hcount, hlength⟩ := hpss.lengths
  rw [← hcount] at htext
  -- what is no list is one key, with one list of parameters
  have hsingle : (keysOf key).2 = false → ∃ ps, pss = [ps] ∧ ps.length = t.key.length := by
    intro hone
    obtain ⟨ps, rfl⟩ := List.length_eq_one_iff.1 (hcount.trans (congrArg List.length (keysOf_one (Prod.ext rfl hone))))
    exact ⟨ps, rfl, hlength ps (List.mem_singleton_self ps)⟩
  rcases single_or_several hne with ⟨column, hcolumn⟩ | ⟨a, b, rest, hseveral⟩
  · simp only [keyText, hcolumn] at htext
    cases hmany : (keysOf key).2 with
    | true =>
      rw [hmany] at htext
      obtain ⟨ps, rfl⟩ := exists_eq_singletons fun ps hps => (hlength ps hps).trans (congrArg List.length hcolumn)
      rw [List.length_map] at htext
      rw [satisfied_member hcolumn (hparams.trans (List.flatMap_singleton' ps)) htext]
      simp only [List.mem_map, exists_exists_and_eq_and]
    | false =>
      rw [hmany] at htext
      obtain ⟨ps, rfl, hps⟩ := hsingle hmany
      obtain ⟨p, rfl⟩ := List.length_eq_one_iff.1 (hps.trans (congrArg List.length hcolumn))
      rw [satisfied_keyAtom hcolumn hparams htext]
      simp only [List.mem_singleton, exists_eq_left]
  · simp only [keyText, hseveral] at htext
    cases hmany : (keysOf key).2 with
    | true =>
      rw [hmany] at htext
      have hpssne : pss ≠ [] := List.ne_nil_of_length_pos (hcount ▸ List.length_pos_iff.2 hkeys)
      exact satisfied_keyGroups hne hlength hpssne hparams htext
    | false =>
      rw [hmany] at htext
      obtain ⟨ps, rfl, hps⟩ := hsingle hmany
      rw [satisfied_keyGroup hne hps (hparams.trans List.flatten_singleton) htext]
      simp only [List.mem_singleton, exists_eq_left]

end Meaning

/-- **Conditions on keys.** The condition on one or more keys binds the values of the key columns, key by key, in a
comparison, a list of values or a group in parentheses, and says of a record that it has one of the keys. There is none
for the reasons given only, and always for one of them. -/
theorem keyCondition_matches (ht : t.check = .ok t) (key : Value) :
    match t.keyCondition key with
    | .ok c => (∃ pss, t.KeyParams key pss ∧ c.params = pss.flatten ∧
        c.params.length = t.key.length * (keysOf key).1.length ∧
        c.text = t.keyText (keysOf key).2 (keysOf key).1.length ∧
        ∀ (anyCase : Bool) (has : String → Param → Prop),
          c.Satisfied anyCase has ↔ ∃ ps ∈ pss, t.HasKey has ps) ∧ ∀ e, ¬ t.KeyRefused key e
    | .error e => t.KeyRefused key e := by
  have hne := (columns_of_check ht).1
  cases h : t.keyCondition key with
  | error e => exact keyCondition_error hne h
  | ok c =>
    obtain ⟨htext, hkeys, hcomplete⟩ := keyCondition_ok hne h
    obtain ⟨-, values, hvalues, hps⟩ := keyCondition_eq_ok h
    obtain ⟨pss, hpss, hparams⟩ := exists_keyParams hvalues hps
    refine ⟨⟨pss, hpss, hparams, ?_, htext, fun _ _ => satisfied_keyText hne hkeys hpss hparams htext⟩, fun _ =>
      not_refused hpss hkeys hcomplete⟩
    obtain ⟨hcount, hlength⟩ := hpss.lengths
    rw [hparams, List.length_flatten, List.map_congr_left hlength, List.map_const', List.sum_replicate_nat, hcount,
      Nat.mul_comm]

/-- The lines of orders, by order and number. -/
def orderLines : Table :=
  ⟨"lines", ["order", "no"], ["order", "no", "item"], ["order", "no", "item"], .copy, none⟩

/-- Two lines by their keys, one of them with more than its key and in another order. -/
theorem keyCondition_matches_orderLines :
    let first : Value := .dict none [(.text "no", .integer 1), (.text "item", .null), (.text "order", .text "A")]
    let second : Value := .dict none [(.text "order", .text "B"), (.text "no", .integer 2)]
    let c : Condition := ⟨orderLines.keyText true 2,
      [⟨.text, .text "A"⟩, ⟨.integer, .integer 1⟩, ⟨.text, .text "B"⟩, ⟨.integer, .integer 2⟩]⟩
    orderLines.check = .ok orderLines ∧ orderLines.keyCondition (.list [first, second]) = .ok c ∧
      ∀ (anyCase : Bool) (has : String → Param → Prop), c.Satisfied anyCase has ↔
        (has "\"lines\".\"order\"" ⟨.text, .text "A"⟩ ∧ has "\"lines\".\"no\"" ⟨.integer, .integer 1⟩) ∨
        (has "\"lines\".\"order\"" ⟨.text, .text "B"⟩ ∧ has "\"lines\".\"no\"" ⟨.integer, .integer 2⟩) := by
  intro first second c
  have hcheck : orderLines.check = .ok orderLines := by rfl
  have hfirst : orderLines.compositeKeyIs first =
      .ok ⟨orderLines.keyGroup, [⟨.text, .text "A"⟩, ⟨.integer, .integer 1⟩]⟩ := by
    simp only [compositeKeyIs, first, orderLines, List.mapM_cons, Dict.column?_cons, Value.toText?, Option.some.injEq,
      String.reduceEq, if_true, if_false]
    rfl
  have hsecond : orderLines.compositeKeyIs second =
      .ok ⟨orderLines.keyGroup, [⟨.text, .text "B"⟩, ⟨.integer, .integer 2⟩]⟩ := by
    simp only [compositeKeyIs, second, orderLines, List.mapM_cons, Dict.column?_cons, Value.toText?, Option.some.injEq,
      String.reduceEq, if_true, if_false]
    rfl
  have hcondition : orderLines.keyCondition (.list [first, second]) = .ok c := by
    have hkeys : keysOf (.list [first, second]) = ([first, second], true) := rfl
    rw [keyCondition_several hkeys rfl]
    simp only [Outcome.mapM_cons, hfirst, hsecond]
    rfl
  refine ⟨hcheck, hcondition, fun anyCase has => ?_⟩
  have hmatches := keyCondition_matches hcheck (.list [first, second])
  rw [hcondition] at hmatches
  obtain ⟨⟨pss, hpss, hparams, -, -, hsatisfied⟩, -⟩ := hmatches
  obtain ⟨hcount, hlength⟩ := hpss.lengths
  obtain ⟨ps, qs, rfl⟩ := List.length_eq_two.1 hcount
  obtain ⟨p, p', rfl⟩ := List.length_eq_two.1 (hlength ps (by simp))
  obtain ⟨q, q', rfl⟩ := List.length_eq_two.1 (hlength qs (by simp))
  obtain ⟨rfl, rfl, rfl, rfl⟩ : _ = p ∧ _ = p' ∧ _ = q ∧ _ = q' := by simpa [c] using hparams
  have hnames : qualify "lines" "order" = "\"lines\".\"order\"" ∧ qualify "lines" "no" = "\"lines\".\"no\"" :=
    ⟨rfl, rfl⟩
  simp [hsatisfied, HasKey, orderLines, hnames]

end Table

end RecordSql
