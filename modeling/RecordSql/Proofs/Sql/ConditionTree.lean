import RecordSql.Proofs.Sql.Balance
import RecordSql.Sql.Condition

/-!
# Trees of conditions

A `ConditionTree` is what a caller writes down: comparisons and memberships, under AND and OR groups of any depth.
Building it gives a balanced condition whose parameters stand in the order of the leaves.
-/

namespace RecordSql

inductive ConditionTree
  | compare (column operator : String) (value : Value)
  | compareColumns (left operator right : String)
  | member (column : String) (values : List Value)
  | allOf (items : List ConditionTree)
  | anyOf (items : List ConditionTree)

namespace ConditionTree

mutual

/-- The condition of a tree. -/
def build : ConditionTree → Except Failure Condition
  | .compare column operator value => Condition.compare column operator value
  | .compareColumns left operator right => .ok (Condition.compareColumns left operator right)
  | .member column values => Condition.member column values
  | .allOf items => do Condition.allOf (← buildAll items)
  | .anyOf items => do Condition.anyOf (← buildAll items)

def buildAll : List ConditionTree → Except Failure (List Condition)
  | [] => .ok []
  | t :: ts => do
    let c ← build t
    return c :: (← buildAll ts)

end

mutual

/-- The values of the leaves, from left to right. -/
def values : ConditionTree → List Value
  | .compare _ _ value => [value]
  | .compareColumns _ _ _ => []
  | .member _ values => values
  | .allOf items | .anyOf items => valuesAll items

def valuesAll : List ConditionTree → List Value
  | [] => []
  | t :: ts => values t ++ valuesAll ts

end

mutual

/-- The column and operator texts of the leaves. -/
def texts : ConditionTree → List String
  | .compare column operator _ => [column, operator]
  | .compareColumns left operator right => [left, operator, right]
  | .member column _ => [column]
  | .allOf items | .anyOf items => textsAll items

def textsAll : List ConditionTree → List String
  | [] => []
  | t :: ts => texts t ++ textsAll ts

end

mutual

/-- No group and no list of values is empty. -/
def Filled : ConditionTree → Prop
  | .compare _ _ _ | .compareColumns _ _ _ => True
  | .member _ values => values ≠ []
  | .allOf items | .anyOf items => items ≠ [] ∧ FilledAll items

def FilledAll : List ConditionTree → Prop
  | [] => True
  | t :: ts => Filled t ∧ FilledAll ts

end

end ConditionTree

namespace Param

theorem length_ofValues {vs : List Value} {ps : List Param} (h : ofValues vs = .ok ps) : ps.length = vs.length :=
  (Outcome.mapM_eq_ok.1 h).length_eq.symm

theorem ofValues_append {vs ws : List Value} {ps : List Param} :
    ofValues (vs ++ ws) = .ok ps ↔ ∃ qs rs, ofValues vs = .ok qs ∧ ofValues ws = .ok rs ∧ ps = qs ++ rs := by
  unfold ofValues
  rw [List.mapM_append]
  simp only [Outcome.bind_eq_ok, Outcome.pure_eq, Except.ok.injEq]
  constructor
  · rintro ⟨qs, hq, rs, hr, rfl⟩
    exact ⟨qs, rs, hq, hr, rfl⟩
  · rintro ⟨qs, rs, hq, hr, rfl⟩
    exact ⟨qs, hq, rs, hr, rfl⟩

end Param

/-! ### Balance of the parts -/

namespace Fragment

variable {a text : String} {ps : List Param}

theorem Balanced.prepend (h : Balanced ⟨text, ps⟩) (ha : MarkFree a) : Balanced ⟨a ++ text, ps⟩ :=
  ⟨ha.1.append h.1, by rw [marksOf_append ha.1, ha.2, Nat.zero_add]; exact h.2⟩

theorem Balanced.append (h : Balanced ⟨text, ps⟩) (ha : MarkFree a) : Balanced ⟨text ++ a, ps⟩ :=
  ⟨h.1.append ha.1, by rw [marksOf_append h.1, ha.2, Nat.add_zero]; exact h.2⟩

/-- Bare marks go with as many parameters. -/
theorem balanced_marks (ps : List Param) : Balanced ⟨marks ps.length, ps⟩ := by
  have hj : (⟨marks ps.length, ps⟩ : Fragment) = join "," (ps.map fun p => ⟨"?", [p]⟩) := by
    rw [join, marks]
    congr 1
    · rw [List.map_map, ← List.map_const']
      rfl
    · simp [List.flatMap_map]
  rw [hj]
  refine balanced_join (by decide) fun f hf => ?_
  obtain ⟨p, -, rfl⟩ := List.mem_map.1 hf
  exact ⟨by show Closed "?"; decide, by show marksOf "?" = 1; decide⟩

end Fragment

namespace Condition

open Fragment

variable {column operator : String} {c : Condition} {ps : List Param}

theorem compare_ok {value : Value} (hc : MarkFree column) (ho : MarkFree operator)
    (h : Param.ofValues [value] = .ok ps) :
    ∃ c, compare column operator value = .ok c ∧ c.Balanced ∧ c.params = ps := by
  obtain ⟨p, hp, hps⟩ : ∃ p, Param.ofValue value = .ok p ∧ ps = [p] := by
    obtain _ | ⟨hp, hn⟩ := Outcome.mapM_eq_ok.1 h
    cases hn
    exact ⟨_, hp, rfl⟩
  subst hps
  refine ⟨_, by rw [compare, hp]; rfl, ?_, rfl⟩
  have hm : Balanced ⟨" ?", [p]⟩ := ⟨by show Closed " ?"; decide, by show marksOf " ?" = 1; decide⟩
  exact hm.prepend ((hc.append (by decide)).append ho)

theorem balanced_compareColumns {left right : String} (hl : MarkFree left) (ho : MarkFree operator)
    (hr : MarkFree right) : (compareColumns left operator right).Balanced :=
  balanced_plain.2 ((((hl.append (by decide)).append ho).append (by decide)).append hr)

theorem member_ok {values : List Value} (hc : MarkFree column) (hne : values ≠ [])
    (h : Param.ofValues values = .ok ps) :
    ∃ c, member column values = .ok c ∧ c.Balanced ∧ c.params = ps := by
  have hps : ¬ ps.isEmpty := by
    rw [List.isEmpty_iff_length_eq_zero, Param.length_ofValues h]
    simpa using hne
  refine ⟨⟨column ++ " IN (" ++ marks ps.length ++ ")", ps⟩, ?_, ?_, rfl⟩
  · rw [member, h, Outcome.ok_bind, if_neg hps]
    rfl
  · exact ((balanced_marks ps).prepend (hc.append (by decide))).append (by decide)

/-- A group of balanced conditions is balanced, and has their parameters in order. -/
theorem group_ok {keyword : String} (hk : MarkFree keyword) {cs : List Condition} (hne : cs ≠ [])
    (h : ∀ c ∈ cs, c.Balanced) :
    ∃ c, group keyword cs = .ok c ∧ c.Balanced ∧ c.params = cs.flatMap params := by
  have hj : (join (" " ++ keyword ++ " ") cs).Balanced :=
    balanced_join ((MarkFree.append (by decide) hk).append (by decide)) h
  have hb : Balanced ⟨"(" ++ (join (" " ++ keyword ++ " ") cs).text ++ ")", cs.flatMap params⟩ :=
    (hj.prepend (by decide)).append (by decide)
  exact ⟨_, by rw [group, if_neg (by simpa using hne)]; rfl, hb, rfl⟩

/-! ### Text and parameters of a condition -/

theorem compare_eq_ok {value : Value} (h : compare column operator value = .ok c) :
    c.text = column ++ " " ++ operator ++ " ?" ∧ Param.ofValues [value] = .ok c.params := by
  obtain ⟨p, hp, rfl⟩ := Outcome.map_eq_ok.1 h
  exact ⟨rfl, Outcome.mapM_eq_ok.2 (.cons hp .nil)⟩

theorem member_eq_ok {values : List Value} (h : member column values = .ok c) :
    c.text = column ++ " IN (" ++ marks values.length ++ ")" ∧ Param.ofValues values = .ok c.params := by
  obtain ⟨ps, hp, h⟩ := Outcome.bind_eq_ok.1 h
  split at h
  · cases h
  · cases h
    exact ⟨by rw [Param.length_ofValues hp], hp⟩

theorem group_eq_ok {keyword : String} {cs : List Condition} (h : group keyword cs = .ok c) :
    c.text = "(" ++ String.intercalate (" " ++ keyword ++ " ") (cs.map Fragment.text) ++ ")" ∧
      c.params = cs.flatMap Fragment.params := by
  unfold group at h
  split at h
  · cases h
  · cases h
    exact ⟨rfl, rfl⟩

end Condition

namespace ConditionTree

mutual

/-- A tree with supported values is built, balanced, and its parameters are those of its leaves in order. -/
theorem build_ok {ps : List Param} : ∀ (t : ConditionTree), (∀ s ∈ t.texts, MarkFree s) → t.Filled →
    Param.ofValues t.values = .ok ps → ∃ c, t.build = .ok c ∧ c.Balanced ∧ c.params = ps
  | .compare column operator value, ht, _, h => by
    rw [texts] at ht
    exact Condition.compare_ok (ht column (by simp)) (ht operator (by simp)) h
  | .compareColumns left operator right, ht, _, h => by
    rw [texts] at ht
    cases h
    exact ⟨_, rfl, Condition.balanced_compareColumns (ht left (by simp)) (ht operator (by simp)) (ht right (by simp)),
      rfl⟩
  | .member column values, ht, hf, h => by
    rw [texts] at ht
    exact Condition.member_ok (ht column (by simp)) hf h
  | .allOf items, ht, ⟨hne, hf⟩, h => by
    obtain ⟨cs, hcs, hl, hb, rfl⟩ := buildAll_ok items ht hf h
    rw [build, hcs, Outcome.ok_bind]
    exact Condition.group_ok (by decide) (by rintro rfl; exact hne (List.length_eq_zero_iff.1 hl.symm)) hb
  | .anyOf items, ht, ⟨hne, hf⟩, h => by
    obtain ⟨cs, hcs, hl, hb, rfl⟩ := buildAll_ok items ht hf h
    rw [build, hcs, Outcome.ok_bind]
    exact Condition.group_ok (by decide) (by rintro rfl; exact hne (List.length_eq_zero_iff.1 hl.symm)) hb

theorem buildAll_ok {ps : List Param} : ∀ (ts : List ConditionTree), (∀ s ∈ textsAll ts, MarkFree s) → FilledAll ts →
    Param.ofValues (valuesAll ts) = .ok ps →
    ∃ cs, buildAll ts = .ok cs ∧ cs.length = ts.length ∧ (∀ c ∈ cs, c.Balanced) ∧ cs.flatMap Fragment.params = ps
  | [], _, _, h => by
    cases h
    exact ⟨[], rfl, rfl, by simp, rfl⟩
  | t :: ts, ht, ⟨hf, hfs⟩, h => by
    rw [textsAll] at ht
    obtain ⟨qs, rs, hq, hr, rfl⟩ := Param.ofValues_append.1 h
    obtain ⟨c, hc, hb, rfl⟩ := build_ok t (fun s hs => ht s (by simp [hs])) hf hq
    obtain ⟨cs, hcs, hl, hbs, rfl⟩ := buildAll_ok ts (fun s hs => ht s (by simp [hs])) hfs hr
    refine ⟨c :: cs, ?_, by simp [hl], by simpa using ⟨hb, hbs⟩, by simp⟩
    rw [buildAll, hc, hcs]
    rfl

end

end ConditionTree

end RecordSql
