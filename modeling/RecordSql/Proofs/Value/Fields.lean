import RecordSql.Proofs.Result.Row
import RecordSql.Proofs.Value.KeyForm

/-!
# Fields of values

Setting an entry of a dictionary or a field of an object changes this entry or field and no other one.
-/

namespace RecordSql

theorem Value.toText?_eq_none {v : Value} {n : Int} (h : v.toInt? = some n) : v.toText? = none := by
  cases v with
  | truth | integer => rfl
  | symbol id kind name v =>
    cases kind with
    | integer => rfl
    | _ => cases h
  | _ => cases h

/-- A value is equal to a text if it is one, or an enumeration member with this text. -/
theorem Value.eqv_text (v : Value) (s : String) : v.eqv (.text s) = true ↔ v.toText? = some s := by
  have hscalar : v.eqv (.text s) = v.scalarEq (.text s) := by cases v <;> simp [eqv]
  have hnone : (Value.text s).toInt? = none := rfl
  rw [hscalar]
  unfold scalarEq
  cases hn : v.toInt? with
  | some n => simp [hnone, toText?_eq_none hn]
  | none => cases v with
    | symbol id kind name w => cases h : (symbol id kind name w).toText? <;> simp [hnone, toText?]
    | _ => simp [hnone, toText?]

/-- The same, from the side of the text. -/
theorem Value.text_eqv (s : String) (v : Value) : (Value.text s).eqv v = true ↔ v.toText? = some s := by
  have hscalar : (Value.text s).eqv v = (Value.text s).scalarEq v := by cases v <;> simp [eqv]
  have hnone : (Value.text s).toInt? = none := rfl
  rw [hscalar]
  unfold scalarEq
  cases hn : v.toInt? with
  | some n => simp [hnone, toText?_eq_none hn]
  | none => cases v with
    | text t => simpa [hnone, toText?] using eq_comm
    | symbol id kind name w => cases h : (symbol id kind name w).toText? with
      | none => simp [hnone, toText?]
      | some t => simpa [hnone, toText?] using eq_comm
    | _ => simp [hnone, toText?]

namespace Value

variable {v c : Value} {s : String}

/-- A key that is an enumeration member is looked up as its text. -/
theorem eqv_of_toText? (h : c.toText? = some s) (v : Value) : v.eqv c = v.eqv (.text s) := by
  rw [Bool.eq_iff_iff, eqv_text]
  cases c with
  | text t =>
    obtain rfl := Option.some.inj h
    exact eqv_text v t
  | symbol id kind label w =>
    cases kind with
    | text =>
      have hscalar : v.eqv (symbol id .text label w) = v.scalarEq (symbol id .text label w) := by
        cases v <;> simp [eqv]
      have hnone : (symbol id .text label w).toInt? = none := rfl
      rw [hscalar]
      unfold scalarEq
      cases hn : v.toInt? with
      | some n => simp [hnone, toText?_eq_none hn]
      | none => cases ht : v.toText? <;> simp [hnone, h]
    | _ => cases h
  | _ => cases h

theorem scalarEq_of_toText? (h : v.toText? = some s) (key : Value) : v.scalarEq key = (text s).scalarEq key := by
  have hv : v.toInt? = none := by
    cases hn : v.toInt? with
    | none => rfl
    | some n =>
      rw [toText?_eq_none hn] at h
      cases h
  have hs : (text s).toInt? = none := rfl
  unfold scalarEq
  rw [hv, hs]
  cases v with
  | text t =>
    cases h
    rfl
  | symbol id kind name w => cases key.toInt? <;> cases key <;> simp [h, toText?]
  | _ => cases h

/-- What has a text is equal to the same keys as the text. -/
theorem eqv_left_of_toText? (h : v.toText? = some s) (key : Value) : v.eqv key = (text s).eqv key := by
  have hscalar : v.eqv key = v.scalarEq key := by
    cases v with
    | text t => cases key <;> simp [eqv]
    | symbol id kind name w => cases kind with
      | text => cases key <;> simp [eqv]
      | _ => cases h
    | _ => cases h
  have htext : (text s).eqv key = (text s).scalarEq key := by cases key <;> simp [eqv]
  rw [hscalar, htext, scalarEq_of_toText? h]

end Value

namespace Dict

variable {d row : Dict} {key key' v : Value} {e : Value × Value}

theorem get?_cons (k w : Value) (d : Dict) (key : Value) :
    Dict.get? ((k, w) :: d) key = if k.eqv key then some w else d.get? key := by
  rw [Dict.get?, List.find?_cons]
  cases h : k.eqv key <;> simp [Dict.get?]

theorem column?_nil (column : String) : Dict.column? [] column = none := rfl

theorem column?_cons (k w : Value) (d : Dict) (column : String) :
    Dict.column? ((k, w) :: d) column = if k.toText? = some column then some w else d.column? column := by
  simp only [column?, get?_cons, Value.eqv_text]

/-- The keys of a dictionary compare with two keys as if equality were an equivalence. -/
structure Compares (d : Dict) (key key' : Value) : Prop where
  left : ∀ e ∈ d, e.1.eqv key = true → e.1.eqv key' = key.eqv key'
  right : key.eqv key' = true → ∀ e ∈ d, e.1.eqv key' = true → e.1.eqv key = true

theorem get?_set (h : d.Compares key key') (v : Value) :
    (d.set key v).get? key' = if key.eqv key' then some v else d.get? key' := by
  induction d with
  | nil => rw [Dict.set, get?_cons]
  | cons e d ih =>
    obtain ⟨k, w⟩ := e
    obtain ⟨hk, hd⟩ := List.forall_mem_cons.1 h.left
    have hrest : Dict.Compares d key key' := ⟨hd, fun hkey e he => h.right hkey e (List.mem_cons_of_mem _ he)⟩
    rw [Dict.set]
    by_cases hset : k.eqv key
    · rw [if_pos hset, get?_cons, get?_cons, hk hset]
      split <;> rfl
    · rw [if_neg hset, get?_cons, get?_cons, ih hrest]
      by_cases hkey : key.eqv key'
      · rw [if_neg fun hother => hset (h.right hkey (k, w) List.mem_cons_self hother), if_pos hkey, if_pos hkey]
      · rw [if_neg hkey, if_neg hkey]

theorem compares_of_hashable (hd : ∀ e ∈ d, e.1.checkKey = .ok ()) (hk : key.checkKey = .ok ()) (key' : Value) :
    d.Compares key key' where
  left e he heq := by
    obtain ⟨f, hf, hkey⟩ := (Value.eqv_iff _ _ (hd e he)).1 heq
    rw [Bool.eq_iff_iff, Value.eqv_iff _ _ (hd e he), Value.eqv_iff _ _ hk, hf, hkey]
  right hkey e he heq := by
    obtain ⟨f, hf, hf'⟩ := (Value.eqv_iff _ _ hk).1 hkey
    obtain ⟨g, hg, hg'⟩ := (Value.eqv_iff _ _ (hd e he)).1 heq
    obtain rfl := Option.some.inj (hf'.symm.trans hg')
    exact (Value.eqv_iff _ _ (hd e he)).2 ⟨f, hg, hf⟩

/-- Texts compare with all keys as if equality were an equivalence. -/
theorem compares_of_text (d : Dict) (name : String) (key : Value) : d.Compares (.text name) key where
  left e _ he := Value.eqv_left_of_toText? ((Value.eqv_text e.1 name).1 he) key
  right hkey e _ he := by rwa [← Value.eqv_of_toText? ((Value.text_eqv name key).1 hkey)]

theorem get?_set_text (d : Dict) (name : String) (v key : Value) :
    (d.set (.text name) v).get? key = if (Value.text name).eqv key then some v else d.get? key :=
  get?_set (compares_of_text d name key) v

theorem column?_set (d : Dict) (name : String) (v : Value) (column : String) :
    (d.set (.text name) v).column? column = if column = name then some v else d.column? column := by
  have hkey : (Value.text name).eqv (.text column) = true ↔ column = name :=
    (Value.eqv_text _ _).trans (Option.some_inj.trans eq_comm)
  rw [column?, get?_set_text]
  exact if_congr hkey rfl rfl

/-! ### Several entries -/

/-- A dictionary as they are: its keys can be keys, and no two of them are equal. -/
structure Proper (d : Dict) : Prop where
  hashable : ∀ e ∈ d, e.1.checkKey = .ok ()
  distinct : d.Pairwise fun a b => a.1.eqv b.1 = false

/-- The dictionary with the entries of another one set, in their order. -/
def update (d row : Dict) : Dict := row.foldl (fun d e => d.set e.1 e.2) d

theorem key_of_mem_set (h : e ∈ d.set key v) : (∃ e' ∈ d, e.1 = e'.1) ∨ e.1 = key := by
  induction d with
  | nil =>
    rw [Dict.set, List.mem_singleton] at h
    exact .inr (by rw [h])
  | cons e' d ih =>
    obtain ⟨k, w⟩ := e'
    rw [Dict.set] at h
    split at h
    · rcases List.mem_cons.1 h with rfl | h
      · exact .inl ⟨_, List.mem_cons_self, rfl⟩
      · exact .inl ⟨e, List.mem_cons_of_mem _ h, rfl⟩
    · rcases List.mem_cons.1 h with rfl | h
      · exact .inl ⟨_, List.mem_cons_self, rfl⟩
      · rcases ih h with ⟨e', he', hkey⟩ | hkey
        · exact .inl ⟨e', List.mem_cons_of_mem _ he', hkey⟩
        · exact .inr hkey

theorem get?_update (hd : ∀ e ∈ d, e.1.checkKey = .ok ()) (hr : Proper row) (key : Value) :
    (d.update row).get? key = (row.get? key).or (d.get? key) := by
  induction row generalizing d with
  | nil => rfl
  | cons e row ih =>
    obtain ⟨k, w⟩ := e
    obtain ⟨hk, hhash⟩ := List.forall_mem_cons.1 hr.hashable
    obtain ⟨hnew, hdistinct⟩ := List.pairwise_cons.1 hr.distinct
    have hset : ∀ e ∈ d.set k w, e.1.checkKey = .ok () := by
      intro e he
      rcases key_of_mem_set he with ⟨e', he', hkey⟩ | hkey
      · rw [hkey, hd e' he']
      · rw [hkey, hk]
    show ((d.set k w).update row).get? key = _
    rw [ih hset ⟨hhash, hdistinct⟩, get?_set (compares_of_hashable hd hk key), get?_cons]
    by_cases hkey : k.eqv key
    · -- no other entry of the row is under an equal key
      have hnone : Dict.get? row key = none := by
        rw [Dict.get?, Option.map_eq_none_iff, List.find?_eq_none]
        intro e he hother
        have hback : e.1.eqv k = true := (compares_of_hashable hhash hk key).right hkey e he hother
        have heq := Value.eqv_symm (hhash e he) hk hback
        rw [hnew e he] at heq
        cases heq
      rw [if_pos hkey, if_pos hkey, hnone]
      rfl
    · rw [if_neg hkey, if_neg hkey]

/-- The entries of a row are found by the texts of their names. -/
theorem get?_ofRow (r : Row) (key : Value) : (ofRow r).get? key = key.toText?.bind r.get? := by
  induction r with
  | nil => cases key.toText? <;> rfl
  | cons e r ih =>
    obtain ⟨k, w⟩ := e
    have hcons : ofRow ((k, w) :: r) = (.text k, w) :: ofRow r := rfl
    rw [hcons, get?_cons, ih, if_congr (Value.text_eqv k key) rfl rfl]
    cases key.toText? with
    | none => rfl
    | some name =>
      rw [Option.bind_some, Option.bind_some, Row.get?_cons]
      exact if_congr Option.some_inj rfl rfl

theorem column?_ofRow (r : Row) (column : String) : (ofRow r).column? column = r.get? column := by
  rw [column?, get?_ofRow]
  rfl

theorem proper_ofRow {r : Row} : Proper (ofRow r) ↔ (r.map (·.1)).Nodup := by
  have htext : ∀ s t : String, (Value.text s).eqv (.text t) = false ↔ s ≠ t := by
    intro s t
    rw [← Bool.not_eq_true, Value.text_eqv]
    exact not_congr (Option.some_inj.trans eq_comm)
  constructor
  · intro h
    rw [List.Nodup, List.pairwise_map]
    exact (List.pairwise_map.1 h.distinct).imp fun he => (htext _ _).1 he
  · intro h
    refine ⟨fun e he => ?_, List.pairwise_map.2 ((List.pairwise_map.1 h).imp fun he => (htext _ _).2 he)⟩
    obtain ⟨⟨name, w⟩, -, rfl⟩ := List.mem_map.1 he
    rfl

end Dict

namespace Row

variable {row r : Row} {name : String} {v : Value} {e : String × Value}

/-- The row with the entries of another one set, in their order. -/
def update (row r : Row) : Row := r.foldl (fun row e => row.set e.1 e.2) row

theorem get?_update (hn : (r.map (·.1)).Nodup) (name : String) :
    (row.update r).get? name = (r.get? name).or (row.get? name) := by
  induction r generalizing row with
  | nil => rfl
  | cons e r ih =>
    obtain ⟨k, w⟩ := e
    obtain ⟨hk, hr⟩ := List.nodup_cons.1 hn
    show ((row.set k w).update r).get? name = _
    rw [ih hr, get?_set, get?_cons]
    by_cases hname : name = k
    · have hnone : Row.get? r name = none := by
        refine Option.eq_none_iff_forall_ne_some.2 fun v hv => hk ?_
        have hmem : name ∈ r.map (·.1) := List.mem_map.2 ⟨_, (get?_eq_some hr).1 hv, rfl⟩
        exact hname ▸ hmem
      rw [if_pos hname, if_pos hname, hnone]
      rfl
    · rw [if_neg hname, if_neg hname]

theorem mem_of_mem_set (h : e ∈ row.set name v) : e ∈ row ∨ e = (name, v) := by
  induction row with
  | nil =>
    rw [Row.set, List.mem_singleton] at h
    exact .inr h
  | cons e' row ih =>
    obtain ⟨k, w⟩ := e'
    rw [Row.set] at h
    split at h
    · rename_i hk
      rcases List.mem_cons.1 h with rfl | h
      · exact .inr (by rw [hk])
      · exact .inl (List.mem_cons_of_mem _ h)
    · rcases List.mem_cons.1 h with rfl | h
      · exact .inl List.mem_cons_self
      · exact (ih h).imp_left (List.mem_cons_of_mem _)

theorem mem_of_mem_update (h : e ∈ row.update r) : e ∈ row ∨ e ∈ r := by
  induction r generalizing row with
  | nil => exact .inl h
  | cons e' r ih =>
    rcases ih h with h | h
    · exact (mem_of_mem_set h).imp_right fun he => List.mem_cons.2 (.inl he)
    · exact .inr (List.mem_cons_of_mem _ h)

theorem nodup_set (h : (row.map (·.1)).Nodup) (name : String) (v : Value) :
    ((row.set name v).map (·.1)).Nodup := by
  induction row with
  | nil => simp [Row.set]
  | cons e row ih =>
    obtain ⟨k, w⟩ := e
    obtain ⟨hk, hrow⟩ := List.nodup_cons.1 h
    rw [Row.set]
    split
    · exact h
    · rename_i hne
      refine List.nodup_cons.2 ⟨fun hmem => ?_, ih hrow⟩
      obtain ⟨e, he, rfl⟩ := List.mem_map.1 hmem
      rcases mem_of_mem_set he with he | rfl
      · exact hk (List.mem_map.2 ⟨e, he, rfl⟩)
      · exact hne rfl

theorem nodup_update (h : (row.map (·.1)).Nodup) (r : Row) : ((row.update r).map (·.1)).Nodup := by
  induction r generalizing row with
  | nil => exact h
  | cons e r ih => exact ih (nodup_set h e.1 e.2)

/-- Different names that are not there go to the end. -/
theorem update_eq_append {before row : Row} (h : ((before ++ row).map (·.1)).Nodup) :
    before.update row = before ++ row := by
  induction row generalizing before with
  | nil => exact (List.append_nil before).symm
  | cons e row ih =>
    obtain ⟨k, v⟩ := e
    have hk : k ∉ before.map (·.1) := by
      rw [List.map_append, List.nodup_append] at h
      exact fun hmem => h.2.2 k hmem k (by simp) rfl
    show (before.set k v).update row = _
    rw [Row.set_of_not_mem hk, ih (by simpa using h), List.append_assoc]
    rfl

end Row

namespace Value

/-- What is in a field of a value. -/
def fieldOf? : Value → String → Option Value
  | .dict _ entries, field => Dict.column? entries field
  | .record _ _ own _, field => Row.get? own field
  | _, _ => none

/-- Whether a value keeps what is put into its fields: dictionaries and objects do. -/
def keepsFields : Value → Bool
  | .dict _ _ | .record _ _ _ _ => true
  | _ => false

variable {v v' x : Value} {field : String}

theorem fieldOf?_of_assign (h : v.assign field x = .ok v') (hv : v.keepsFields) (name : String) :
    v'.fieldOf? name = if name = field then some x else v.fieldOf? name := by
  cases v with
  | dict id entries =>
    cases h
    exact Dict.column?_set entries field x name
  | record id cls own inherited =>
    cases h
    exact Row.get?_set own field x name
  | _ => cases hv

theorem fieldOf?_assign (h : v.assign field x = .ok v') (hv : v.keepsFields) : v'.fieldOf? field = some x :=
  (fieldOf?_of_assign h hv field).trans (if_pos rfl)

theorem keepsFields_assign (h : v.assign field x = .ok v') : v'.keepsFields = v.keepsFields := by
  cases v with
  | dict | record =>
    cases h
    rfl
  | symbol id kind name w =>
    rw [assign] at h
    split at h
    · cases h
    · obtain rfl := Except.ok.inj h
      rfl
  | param kind w =>
    rw [assign] at h
    split at h
    all_goals
      obtain rfl := Except.ok.inj h
      rfl
  | default =>
    obtain rfl := Except.ok.inj h
    rfl
  | _ => cases h

end Value

end RecordSql
