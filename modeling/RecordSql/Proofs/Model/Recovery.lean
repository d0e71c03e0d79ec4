import RecordSql.Proofs.Model.Attributes
import RecordSql.Proofs.Table.Writing

/-!
# Values that typed fields give back

A record of a schema is written as plain data, under the names of its fields, and read by fitting data to the types of
the fields, each field from the entry under its label. `FieldType.Recovers` says, type by type, which values survive
this, and `FieldList.Recovers` which attributes do: a field that is labelled by its own name needs a value that its type
gives back; any other field takes what the data has under its label, which is another field or nothing.
-/

namespace RecordSql

/-! ### What is given back -/

/-- The plain data of one value, fitted to the type, is the other. -/
def FieldType.Fits (type : FieldType) (u v : Value) : Prop := ∃ w, u.plain = .ok w ∧ type.check w = .ok v

/-- A field has the value, if this was found under its label: it is fitted to the type, or else the field is absent. -/
def FieldType.Finds (type : FieldType) (fallback found : Option Value) (v : Value) : Prop :=
  match found with
  | some u => type.Fits u v
  | none => fallback = some v

mutual

/-- The values that a type gives back: of a number, a truth value or a text those of the kind, of `any` the plain data,
and of the others what is put together from such. -/
def FieldType.Recovers : FieldType → Value → Prop
  | .any, v => v.plain = .ok v
  | .integer, v => ∃ n, v = .integer n
  | .real, v => ∃ x, v = .real x
  | .truth, v => ∃ b, v = .truth b
  | .text, v => ∃ s, v = .text s
  | .table, v => ∃ row : Row, v = row.toValue ∧ (row.map (·.1)).Nodup ∧ v.plain = .ok v
  | .optional inner, v => v = .null ∨ inner.Recovers v
  | .list inner, v => ∃ vs, v = .list vs ∧ ∀ u ∈ vs, inner.Recovers u
  | .nested name fields, v => ∃ own, v = .record none (schemaClass name fields) own [] ∧ fields.Recovers own own

/-- The attributes that fields give back, as a part of all attributes of a record. -/
def FieldList.Recovers : FieldList → Row → Row → Prop
  | .nil, _, own => own = []
  | .cons name label type fallback rest, all, own => ∃ v others, own = (name, v) :: others ∧
    (if label = name then type.Recovers v
      else (∃ w, v.plain = .ok w) ∧ type.Finds fallback (all.get? label) v) ∧
    rest.Recovers all others

end

/-- What fields take from the plain data of all attributes. -/
def FieldList.Fits : FieldList → Row → Row → Prop
  | .nil, _, own => own = []
  | .cons name label type fallback rest, all, own => ∃ v others, own = (name, v) :: others ∧
    type.Finds fallback (all.get? label) v ∧ rest.Fits all others

mutual

/-- The fields of every schema in a type have names of their own. -/
def FieldType.Distinct : FieldType → Prop
  | .optional inner | .list inner => inner.Distinct
  | .nested _ fields => fields.names.Nodup ∧ fields.Distinct
  | _ => True

/-- The same for the types of fields. -/
def FieldList.Distinct : FieldList → Prop
  | .nil => True
  | .cons _ _ type _ rest => type.Distinct ∧ rest.Distinct

end

/-! ### Plain data that has no parts -/

namespace Value

/-- A value without parts that plain data could be made of. -/
def IsLeaf : Value → Prop
  | .null | .truth _ | .integer _ | .real _ | .text _ | .bytes _ _ | .symbol _ _ _ _ | .default => True
  | _ => False

variable {v w : Value}

theorem plain_leaf (h : v.IsLeaf) : v.plain = .ok v := by
  cases v with
  | list | tuple | set | stream | dict | param | record => exact h.elim
  | _ => rfl

/-- What has no parts is plain data of itself only. -/
theorem eq_of_plain_leaf (h : v.plain = .ok w) (hw : w.IsLeaf) : v = w := by
  cases v with
  | list vs =>
    rw [plain] at h
    obtain ⟨ws, -, rfl⟩ := Outcome.map_eq_ok.1 h
    exact hw.elim
  | tuple vs =>
    rw [plain] at h
    obtain ⟨ws, -, rfl⟩ := Outcome.map_eq_ok.1 h
    exact hw.elim
  | set vs =>
    rw [plain] at h
    obtain ⟨ws, -, h⟩ := Outcome.bind_eq_ok.1 h
    obtain ⟨_, -, h⟩ := Outcome.bind_eq_ok.1 h
    cases h
    exact hw.elim
  | dict id entries =>
    rw [plain] at h
    obtain ⟨es, -, rfl⟩ := Outcome.map_eq_ok.1 h
    exact hw.elim
  | stream id vs =>
    cases h
    exact hw.elim
  | param kind x =>
    rw [plain] at h
    obtain ⟨y, -, rfl⟩ := Outcome.map_eq_ok.1 h
    exact hw.elim
  | record id cls own inherited =>
    rw [plain] at h
    split at h
    · obtain ⟨row, -, rfl⟩ := Outcome.map_eq_ok.1 h
      exact hw.elim
    · obtain ⟨row, -, rfl⟩ := Outcome.map_eq_ok.1 h
      exact hw.elim
    · cases h
      exact hw.elim
  | _ => exact Except.ok.inj h

theorem plainAll_eq_ok {vs ws : List Value} :
    plainAll vs = .ok ws ↔ List.Forall₂ (fun v w => v.plain = .ok w) vs ws := by
  induction vs generalizing ws with
  | nil =>
    rw [plainAll, Except.ok.injEq]
    exact ⟨fun h => h ▸ .nil, fun h => by cases h; rfl⟩
  | cons v vs ih =>
    rw [plainAll]
    constructor
    · intro h
      obtain ⟨w, hw, h⟩ := Outcome.bind_eq_ok.1 h
      obtain ⟨rest, hrest, h⟩ := Outcome.bind_eq_ok.1 h
      obtain rfl := Except.ok.inj h
      exact .cons hw (ih.1 hrest)
    · rintro (_ | ⟨hw, hrest⟩)
      rw [hw, ih.2 hrest]
      rfl

end Value

/-! ### What fits the single types -/

namespace Coerce

variable {v w : Value}

theorem decoded_eq_ok {fit : String → Fitted} {otherwise : Complaint} {data : List UInt8}
    (h : decoded fit otherwise data = .ok v) : ∃ s, fit s = .ok v := by
  rw [decoded] at h
  split at h
  · exact ⟨_, h⟩
  · cases h

theorem integerOfText_eq_ok {s : String} (h : integerOfText s = .ok v) : ∃ n, v = .integer n := by
  rw [integerOfText] at h
  split at h
  · exact ⟨_, (Except.ok.inj h).symm⟩
  · cases h
  · cases h

/-- What passes as an integer is one, or what a member of an enumeration has inside. -/
theorem integer_eq_ok : ∀ w v : Value, integer w = .ok v →
    (∃ n, v = .integer n) ∨ w.IsLeaf ∧ sizeOf v < sizeOf w
  | w, v, h => by
    unfold integer at h
    split at h
    · exact .inl ⟨_, (Except.ok.inj h).symm⟩
    · exact .inl ⟨_, (Except.ok.inj h).symm⟩
    · split at h
      · split at h
        · exact .inl ⟨_, (Except.ok.inj h).symm⟩
        · cases h
      · cases h
      · cases h
    · exact .inl (integerOfText_eq_ok h)
    · obtain ⟨s, hs⟩ := decoded_eq_ok h
      exact .inl (integerOfText_eq_ok hs)
    · obtain rfl := Except.ok.inj h
      exact .inr ⟨trivial, by rw [Value.symbol.sizeOf_spec]; omega⟩
    · rename_i x _
      rcases integer_eq_ok x v h with hn | ⟨-, hsize⟩
      · exact .inl hn
      · exact .inr ⟨trivial, by rw [Value.symbol.sizeOf_spec]; omega⟩
    · cases h

theorem real_eq_ok : ∀ w v : Value, real w = .ok v → ∃ x, v = .real x
  | w, v, h => by
    have htext : ∀ s, realOfText s = .ok v → ∃ x, v = .real x := by
      intro s hs
      rw [realOfText] at hs
      split at hs
      · exact ⟨_, (Except.ok.inj hs).symm⟩
      · cases hs
    unfold real at h
    split at h
    · exact ⟨_, (Except.ok.inj h).symm⟩
    · split at h
      · exact ⟨_, (Except.ok.inj h).symm⟩
      · cases h
    · exact ⟨_, (Except.ok.inj h).symm⟩
    · exact htext _ h
    · obtain ⟨s, hs⟩ := decoded_eq_ok h
      exact htext s hs
    · exact real_eq_ok _ v h
    · exact real_eq_ok _ v h
    · cases h

theorem truth_eq_ok : ∀ w v : Value, truth w = .ok v → ∃ b, v = .truth b
  | w, v, h => by
    have hint : ∀ n, truthOfInt n = .ok v → ∃ b, v = .truth b := by
      intro n hn
      rw [truthOfInt] at hn
      split at hn
      · exact ⟨_, (Except.ok.inj hn).symm⟩
      · split at hn
        · exact ⟨_, (Except.ok.inj hn).symm⟩
        · split at hn <;> cases hn
    have htext : ∀ s, truthOfText s = .ok v → ∃ b, v = .truth b := by
      intro s hs
      rw [truthOfText] at hs
      split at hs
      · exact ⟨_, (Except.ok.inj hs).symm⟩
      · cases hs
    unfold truth at h
    split at h
    · exact ⟨_, (Except.ok.inj h).symm⟩
    · exact hint _ h
    · split at h
      · split at h
        · exact hint _ h
        · cases h
      · cases h
    · exact htext _ h
    · obtain ⟨s, hs⟩ := decoded_eq_ok h
      exact htext s hs
    · exact truth_eq_ok _ v h
    · exact truth_eq_ok _ v h
    · cases h

theorem text_eq_ok : ∀ w v : Value, text w = .ok v → ∃ s, v = .text s
  | w, v, h => by
    unfold text at h
    split at h
    · exact ⟨_, (Except.ok.inj h).symm⟩
    · obtain ⟨s, hs⟩ := decoded_eq_ok h
      exact ⟨s, (Except.ok.inj hs).symm⟩
    · exact text_eq_ok _ v h
    · exact ⟨_, (Except.ok.inj h).symm⟩
    · exact ⟨_, (Except.ok.inj h).symm⟩
    · cases h

theorem under_eq_ok {α : Type} {step : String} {x : Except (List Problem) α} {a : α} :
    under step x = .ok a ↔ x = .ok a := Outcome.mapError_eq_ok

theorem items_eq_ok {fit : Value → Fitted} {k : Nat} {ws vs : List Value} :
    items fit k ws = .ok vs ↔ List.Forall₂ (fun w v => fit w = .ok v) ws vs := by
  induction ws generalizing k vs with
  | nil =>
    rw [items, Except.ok.injEq]
    exact ⟨fun h => h ▸ .nil, fun h => by cases h; rfl⟩
  | cons w ws ih =>
    rw [items]
    constructor
    · intro h
      obtain ⟨⟨v, rest⟩, hboth, rfl⟩ := Outcome.map_eq_ok.1 h
      obtain ⟨hv, hrest⟩ := both_eq_ok.1 hboth
      exact .cons (under_eq_ok.1 hv) (ih.1 hrest)
    · rintro (_ | ⟨hv, hrest⟩)
      rw [both_eq_ok.2 ⟨under_eq_ok.2 hv, ih.2 hrest⟩]
      rfl

/-- Fitted keys are texts, and what is under them stays. -/
theorem keys_eq_ok {entries es : List (Value × Value)} (h : keys entries = .ok es) : ∃ row, es = Dict.ofRow row := by
  induction entries generalizing es with
  | nil =>
    obtain rfl := Except.ok.inj h
    exact ⟨[], rfl⟩
  | cons e entries ih =>
    obtain ⟨k, v⟩ := e
    obtain ⟨⟨l, rest⟩, hboth, rfl⟩ := Outcome.map_eq_ok.1 h
    obtain ⟨hl, hrest⟩ := both_eq_ok.1 hboth
    obtain ⟨s, rfl⟩ := text_eq_ok k l (under_eq_ok.1 (under_eq_ok.1 hl))
    obtain ⟨row, rfl⟩ := ih hrest
    exact ⟨(s, v) :: row, rfl⟩

theorem keys_ofRow (row : Row) : keys (Dict.ofRow row) = .ok (Dict.ofRow row) := by
  induction row with
  | nil => rfl
  | cons e row ih =>
    obtain ⟨k, v⟩ := e
    have hcons : Dict.ofRow ((k, v) :: row) = (.text k, v) :: Dict.ofRow row := rfl
    rw [hcons, keys, ih]
    rfl

end Coerce

/-! ### Tables of texts -/

namespace Dict

theorem set_ofRow (row : Row) (name : String) (v : Value) :
    Dict.set (ofRow row) (.text name) v = ofRow (row.set name v) := by
  induction row with
  | nil => rfl
  | cons e row ih =>
    obtain ⟨k, w⟩ := e
    have hcons : ofRow ((k, w) :: row) = (.text k, w) :: ofRow row := rfl
    have hkey : (Value.text k).eqv (.text name) = true ↔ k = name := by
      rw [Value.text_eqv, Value.toText?, Option.some_inj, eq_comm]
    rw [hcons, Dict.set, Row.set, ih]
    by_cases hk : k = name
    · rw [if_pos (hkey.2 hk), if_pos hk]
      rfl
    · rw [if_neg (mt hkey.1 hk), if_neg hk]
      rfl

theorem ofEntries_ofRow (row : Row) : ofEntries (ofRow row) = ofRow (Row.update [] row) := by
  have hfrom : ∀ before : Row, (ofRow row).foldl (fun d e => Dict.set d e.1 e.2) (ofRow before) =
      ofRow (before.update row) := by
    induction row with
    | nil => exact fun _ => rfl
    | cons e row ih =>
      obtain ⟨k, v⟩ := e
      intro before
      show (ofRow row).foldl _ (Dict.set (ofRow before) (.text k) v) = _
      rw [set_ofRow, ih]
      rfl
  exact hfrom []

theorem ofRow_inj {row row' : Row} : ofRow row = ofRow row' ↔ row = row' := by
  refine ⟨fun h => ?_, congrArg ofRow⟩
  refine List.map_injective_iff.2 (fun e e' he => ?_) h
  obtain ⟨hk, hv⟩ := Prod.mk.inj he
  exact Prod.ext (Value.text.inj hk) hv

end Dict

theorem Row.get?_eq_none {row : Row} {name : String} (h : name ∉ row.map (·.1)) : row.get? name = none :=
  Option.eq_none_iff_forall_ne_some.2 fun _ hv => h (List.mem_map.2 ⟨_, mem_of_get? hv, rfl⟩)

theorem Dict.ofEntries_of_nodup {row : Row} (h : (row.map (·.1)).Nodup) :
    Dict.ofEntries (Dict.ofRow row) = Dict.ofRow row := by
  have hsame : Row.update [] row = row := Row.update_eq_append h
  rw [ofEntries_ofRow, hsame]

theorem Value.plainEntries_ofRow {row : Row} {entries : List (Value × Value)}
    (h : plainEntries (Dict.ofRow row) = .ok entries) :
    ∃ row' : Row, entries = Dict.ofRow row' ∧ row'.map (·.1) = row.map (·.1) := by
  induction row generalizing entries with
  | nil =>
    obtain rfl := Except.ok.inj h
    exact ⟨[], rfl, rfl⟩
  | cons e row ih =>
    obtain ⟨k, v⟩ := e
    have hcons : Dict.ofRow ((k, v) :: row) = (.text k, v) :: Dict.ofRow row := rfl
    rw [hcons, plainEntries] at h
    obtain ⟨l, hl, h⟩ := Outcome.bind_eq_ok.1 h
    obtain rfl := Except.ok.inj hl
    obtain ⟨w, -, h⟩ := Outcome.bind_eq_ok.1 h
    obtain ⟨_, -, h⟩ := Outcome.bind_eq_ok.1 h
    obtain ⟨rest, hrest, h⟩ := Outcome.bind_eq_ok.1 h
    obtain rfl := Except.ok.inj h
    obtain ⟨row', rfl, hnames⟩ := ih hrest
    exact ⟨(k, w) :: row', rfl, by simp [hnames]⟩

/-! ### Types without fields -/

namespace FieldType

variable {v : Value}

theorem check_table (w : Value) : table.check w = match w with
    | .dict _ entries => (Coerce.keys entries).map fun es => .dict none (Dict.ofEntries es)
    | _ => Coerce.complain .notDict := by
  cases w <;> rfl

theorem check_optional (inner : FieldType) (w : Value) : (optional inner).check w = match w with
    | .null => .ok .null
    | _ => inner.check w := by
  cases w <;> rfl

/-- What fits a list type is a list that was fitted item by item. -/
theorem check_list_eq_ok {inner : FieldType} {w v : Value} (h : (list inner).check w = .ok v) :
    ∃ ws vs, w.items? = some ws ∧ v = .list vs ∧ List.Forall₂ (fun w v => inner.check w = .ok v) ws vs := by
  have hitems : ∀ ws, (Coerce.items inner.check 0 ws).map .list = .ok v →
      ∃ vs, v = .list vs ∧ List.Forall₂ (fun w v => inner.check w = .ok v) ws vs := by
    intro ws hws
    obtain ⟨vs, hvs, rfl⟩ := Outcome.map_eq_ok.1 hws
    exact ⟨vs, rfl, Coerce.items_eq_ok.1 hvs⟩
  simp only [check] at h
  split at h
  any_goals cases h
  split at h
  · rename_i ws hws
    obtain ⟨vs, hvs⟩ := hitems ws h
    exact ⟨ws, vs, hws, hvs⟩
  · cases h

/-- A type of single values gives back the values that it makes. -/
theorem fits_self_iff_of_leaf {type : FieldType} {p : Value → Prop} (hmade : ∀ w v, type.check w = .ok v → p v)
    (hleaf : ∀ v, p v → v.IsLeaf) (hkept : ∀ v, p v → type.check v = .ok v) : p v ↔ type.Fits v v := by
  constructor
  · exact fun hp => ⟨v, Value.plain_leaf (hleaf v hp), hkept v hp⟩
  · rintro ⟨w, -, hw⟩
    exact hmade w v hw

theorem integer_fits_iff : (∃ n, v = .integer n) ↔ integer.Fits v v := by
  constructor
  · rintro ⟨n, rfl⟩
    exact ⟨.integer n, rfl, rfl⟩
  · rintro ⟨w, hw, hv⟩
    rcases Coerce.integer_eq_ok w v hv with hn | ⟨hleaf, hsize⟩
    · exact hn
    · -- the value would be inside of itself
      rw [Value.eq_of_plain_leaf hw hleaf] at hsize
      exact absurd hsize (Nat.lt_irrefl _)

theorem table_fits_iff :
    (∃ row : Row, v = row.toValue ∧ (row.map (·.1)).Nodup ∧ v.plain = .ok v) ↔ table.Fits v v := by
  constructor
  · rintro ⟨row, rfl, hn, hplain⟩
    refine ⟨row.toValue, hplain, ?_⟩
    rw [Row.toValue, check_table]
    dsimp only
    rw [Coerce.keys_ofRow, Outcome.map_ok, Dict.ofEntries_of_nodup hn]
  · rintro ⟨w, hw, hv⟩
    rw [check_table] at hv
    split at hv
    · rename_i id entries
      obtain ⟨es, hes, rfl⟩ := Outcome.map_eq_ok.1 hv
      obtain ⟨r, rfl⟩ := Coerce.keys_eq_ok hes
      have hempty : (([] : Row).map (·.1)).Nodup := List.nodup_nil
      have hn : ((Row.update [] r).map (·.1)).Nodup := Row.nodup_update hempty r
      rw [Dict.ofEntries_ofRow] at hw ⊢
      rw [Value.plain] at hw
      obtain ⟨plained, hplained, hdict⟩ := Outcome.map_eq_ok.1 hw
      obtain ⟨row', rfl, hnames⟩ := Value.plainEntries_ofRow hplained
      obtain ⟨rfl, rfl⟩ := Value.dict.inj hdict
      -- the keys of plain data are texts already, so fitting them changes nothing
      rw [Coerce.keys_ofRow] at hes
      obtain rfl := Dict.ofRow_inj.1 (Except.ok.inj hes)
      have hsame : Row.update [] row' = row' := Row.update_eq_append (hnames ▸ hn)
      rw [hsame] at hplained hn ⊢
      refine ⟨row', rfl, hn, ?_⟩
      rw [Value.plain, hplained]
      rfl
    · cases hv

theorem optional_fits_iff {inner : FieldType} : v = .null ∨ inner.Fits v v ↔ (optional inner).Fits v v := by
  have hnull : ∀ {w}, v.plain = .ok w → w = .null → v = .null := by
    rintro w hw rfl
    exact Value.eq_of_plain_leaf hw trivial
  constructor
  · rintro (rfl | ⟨w, hw, hv⟩)
    · exact ⟨.null, rfl, rfl⟩
    · refine ⟨w, hw, ?_⟩
      rw [check_optional]
      split
      · rw [hnull hw rfl]
      · exact hv
  · rintro ⟨w, hw, hv⟩
    rw [check_optional] at hv
    split at hv
    · exact .inl (Except.ok.inj hv).symm
    · exact .inr ⟨w, hw, hv⟩

/-- Values go to others and back if each does. -/
theorem exists_forall₂_iff {r q : Value → Value → Prop} {vs : List Value} :
    (∃ ws, List.Forall₂ r vs ws ∧ List.Forall₂ q ws vs) ↔ ∀ v ∈ vs, ∃ w, r v w ∧ q w v := by
  induction vs with
  | nil => exact ⟨fun _ => List.forall_mem_nil _, fun _ => ⟨[], .nil, .nil⟩⟩
  | cons v vs ih =>
    rw [List.forall_mem_cons, ← ih]
    constructor
    · rintro ⟨_, _ | ⟨hr, hrs⟩, _ | ⟨hq, hqs⟩⟩
      exact ⟨⟨_, hr, hq⟩, _, hrs, hqs⟩
    · rintro ⟨⟨w, hr, hq⟩, ws, hrs, hqs⟩
      exact ⟨w :: ws, .cons hr hrs, .cons hq hqs⟩

theorem list_fits_iff {inner : FieldType} :
    (∃ vs, v = .list vs ∧ ∀ u ∈ vs, inner.Fits u u) ↔ (list inner).Fits v v := by
  constructor
  · rintro ⟨vs, rfl, hvs⟩
    obtain ⟨ws, hplain, hfit⟩ := exists_forall₂_iff.2 hvs
    refine ⟨.list ws, ?_, ?_⟩
    · rw [Value.plain, Value.plainAll_eq_ok.2 hplain]
      rfl
    · have hitems : Coerce.items inner.check 0 ws = .ok vs := Coerce.items_eq_ok.2 hfit
      simp only [check, Value.items?, hitems]
      rfl
  · rintro ⟨w, hw, hv⟩
    obtain ⟨ws, vs, hws, rfl, hfit⟩ := check_list_eq_ok hv
    rw [Value.plain] at hw
    obtain ⟨ws', hplain, rfl⟩ := Outcome.map_eq_ok.1 hw
    obtain rfl := Option.some.inj hws
    exact ⟨vs, rfl, exists_forall₂_iff.1 ⟨ws', Value.plainAll_eq_ok.1 hplain, hfit⟩⟩

end FieldType

/-! ### Attributes -/

theorem FieldList.names_of_recovers (fields : FieldList) (all own : Row) (h : fields.Recovers all own) :
    own.map (·.1) = fields.names := by
  cases fields with
  | nil =>
    obtain rfl := h
    rfl
  | cons name label type fallback rest =>
    obtain ⟨v, others, rfl, -, hrest⟩ := h
    rw [List.map_cons, names, names_of_recovers rest all others hrest]

section Data

variable {all data : Row}

/-- The data has the plain data of all attributes. -/
structure Mirrors (all data : Row) : Prop where
  plain : ∀ e ∈ all, ∃ w, e.2.plain = .ok w
  get? : ∀ name, data.get? name = (all.get? name).bind fun v => v.plain.toOption

/-- What a field makes of what it finds in data, which may be nothing. -/
def FieldType.fit (type : FieldType) (label : String) (fallback found : Option Value) : Coerce.Fitted :=
  match found, fallback with
  | some v, _ => Coerce.under label (type.check v)
  | none, some v => .ok v
  | none, none => .error [⟨[label], .missing⟩]

theorem FieldList.check_cons_eq (name label : String) (type : FieldType) (fallback : Option Value) (rest : FieldList)
    (d : Dict) : (FieldList.cons name label type fallback rest).check d =
      (Coerce.both (type.fit label fallback (d.column? label)) (rest.check d)).map fun (v, row) =>
        (name, v) :: row := rfl

theorem FieldType.fit_eq_ok_iff (h : Mirrors all data) {label : String} {type : FieldType} {fallback : Option Value}
    {v : Value} : type.fit label fallback (data.get? label) = .ok v ↔ type.Finds fallback (all.get? label) v := by
  rw [h.get?]
  cases hu : all.get? label with
  | none => cases fallback <;> simp [fit, Finds]
  | some u =>
    obtain ⟨w, hw⟩ : ∃ w, u.plain = .ok w := h.plain _ (Row.mem_of_get? hu)
    rw [Option.bind_some, hw]
    show Coerce.under label (type.check w) = .ok v ↔ type.Fits u v
    rw [Coerce.under_eq_ok, Fits, hw]
    constructor
    · exact fun hv => ⟨w, rfl, hv⟩
    · rintro ⟨_, ⟨⟩, hv⟩
      exact hv

/-- What is made of the data is what the fields take from it. -/
theorem FieldList.check_eq_ok_iff (h : Mirrors all data) (fields : FieldList) (own : Row) :
    fields.check (Dict.ofRow data) = .ok own ↔ fields.Fits all own := by
  cases fields with
  | nil => exact ⟨fun hown => (Except.ok.inj hown).symm, fun hown => by rw [hown]; rfl⟩
  | cons name label type fallback rest =>
    rw [check_cons_eq, Dict.column?_ofRow, Fits]
    constructor
    · intro hown
      obtain ⟨⟨v, others⟩, hboth, rfl⟩ := Outcome.map_eq_ok.1 hown
      obtain ⟨hv, hothers⟩ := Coerce.both_eq_ok.1 hboth
      exact ⟨v, others, rfl, (FieldType.fit_eq_ok_iff h).1 hv, (check_eq_ok_iff h rest others).1 hothers⟩
    · rintro ⟨v, others, rfl, hv, hothers⟩
      rw [Coerce.both_eq_ok.2 ⟨(FieldType.fit_eq_ok_iff h).2 hv, (check_eq_ok_iff h rest others).2 hothers⟩]
      rfl

end Data

/-! ### Records -/

theorem FieldList.names_of_fits (fields : FieldList) (all own : Row) (h : fields.Fits all own) :
    own.map (·.1) = fields.names := by
  cases fields with
  | nil =>
    obtain rfl := h
    rfl
  | cons name label type fallback rest =>
    obtain ⟨v, others, rfl, -, hrest⟩ := h
    rw [List.map_cons, names, names_of_fits rest all others hrest]

section Records

variable {name : String} {fields : FieldList} {own data : Row}

theorem mirrors_of_fieldsOf (hnames : own.map (·.1) = fields.names)
    (h : Writer.fieldsOf (.record none (schemaClass name fields) own []) = .ok data) : Mirrors own data where
  plain e he := by
    rw [Writer.fieldsOf_schematic rfl, Value.plainFields_eq_map] at h
    have hmem : (e.1, e.2.plain) ∈
        (own.map fun e => (e.1, e.2.plain)).filter fun e => (schemaClass name fields).fields.contains e.1 := by
      refine List.mem_filter.2 ⟨List.mem_map_of_mem he, ?_⟩
      show fields.names.contains e.1 = true
      rw [List.contains_iff_mem, ← hnames]
      exact List.mem_map_of_mem he
    obtain ⟨_, hx⟩ := Outcome.exists_mapM_eq_ok.1 ⟨_, h⟩ _ hmem
    obtain ⟨w, hw, -⟩ := Outcome.map_eq_ok.1 hx
    exact ⟨w, hw⟩
  get? column := by
    have hfield : data.get? column = if column ∈ fields.names then _ else none := Writer.get?_fieldsOf h column
    rw [hfield]
    split
    · rfl
    · rename_i hcolumn
      rw [Row.get?_eq_none (hnames ▸ hcolumn), Option.bind_none]

theorem exists_fieldsOf (h : ∀ e ∈ own, ∃ w, e.2.plain = .ok w) :
    ∃ data, Writer.fieldsOf (.record none (schemaClass name fields) own []) = .ok data := by
  rw [Writer.fieldsOf_schematic rfl, Value.plainFields_eq_map]
  refine Outcome.exists_mapM_eq_ok.2 fun e he => ?_
  obtain ⟨e', he', rfl⟩ := List.mem_map.1 (List.mem_filter.1 he).1
  obtain ⟨w, hw⟩ := h e' he'
  exact ⟨(e'.1, w), Outcome.map_eq_ok.2 ⟨w, hw, rfl⟩⟩

theorem plain_record : (Value.record none (schemaClass name fields) own []).plain =
    (Writer.fieldsOf (.record none (schemaClass name fields) own [])).map Row.toValue := rfl

/-- A record fits its own schema again exactly if its attributes have plain data that the fields take for them. -/
theorem FieldType.nested_fits_iff {v : Value} : (nested name fields).Fits v v ↔
    ∃ own, v = .record none (schemaClass name fields) own [] ∧
      (∀ e ∈ own, ∃ w, e.2.plain = .ok w) ∧ fields.Fits own own := by
  constructor
  · rintro ⟨w, hw, hv⟩
    rw [check.eq_def] at hv
    dsimp only at hv
    split at hv
    · rename_i id entries
      obtain ⟨own, hown, rfl⟩ := Outcome.map_eq_ok.1 hv
      rw [plain_record] at hw
      obtain ⟨data, hdata, hdict⟩ := Outcome.map_eq_ok.1 hw
      obtain ⟨rfl, rfl⟩ := Value.dict.inj hdict
      have hmirrors := mirrors_of_fieldsOf (fields.names_of_check _ hown) hdata
      exact ⟨own, rfl, hmirrors.plain, (fields.check_eq_ok_iff hmirrors own).1 hown⟩
    · cases hv
  · rintro ⟨own, rfl, hplain, hfits⟩
    obtain ⟨data, hdata⟩ : ∃ data, Writer.fieldsOf (.record none (schemaClass name fields) own []) = .ok data :=
      exists_fieldsOf hplain
    have hmirrors := mirrors_of_fieldsOf (fields.names_of_fits own own hfits) hdata
    refine ⟨data.toValue, ?_, ?_⟩
    · rw [plain_record, hdata]
      rfl
    · show (fields.check (Dict.ofRow data)).map _ = _
      rw [(fields.check_eq_ok_iff hmirrors own).2 hfits]
      rfl

end Records

mutual

/-- A type gives back exactly the values whose plain data, fitted to it, is the value again. -/
theorem FieldType.recovers_iff (type : FieldType) (hd : type.Distinct) (v : Value) :
    type.Recovers v ↔ type.Fits v v := by
  cases type with
  | any =>
    constructor
    · exact fun h => ⟨v, h, rfl⟩
    · rintro ⟨w, hw, hv⟩
      obtain rfl := Except.ok.inj hv
      exact hw
  | integer => exact FieldType.integer_fits_iff
  | real =>
    refine FieldType.fits_self_iff_of_leaf Coerce.real_eq_ok ?_ ?_
    · rintro _ ⟨x, rfl⟩
      trivial
    · rintro _ ⟨x, rfl⟩
      rfl
  | truth =>
    refine FieldType.fits_self_iff_of_leaf Coerce.truth_eq_ok ?_ ?_
    · rintro _ ⟨b, rfl⟩
      trivial
    · rintro _ ⟨b, rfl⟩
      rfl
  | text =>
    refine FieldType.fits_self_iff_of_leaf Coerce.text_eq_ok ?_ ?_
    · rintro _ ⟨s, rfl⟩
      trivial
    · rintro _ ⟨s, rfl⟩
      rfl
  | table => exact FieldType.table_fits_iff
  | optional inner =>
    rw [← FieldType.optional_fits_iff, ← FieldType.recovers_iff inner hd v]
    rfl
  | list inner =>
    rw [← FieldType.list_fits_iff]
    have hitems : ∀ u, inner.Recovers u ↔ inner.Fits u u := FieldType.recovers_iff inner hd
    simp only [← hitems]
    rfl
  | nested name fields =>
    obtain ⟨hn, hfields⟩ := hd
    rw [FieldType.nested_fits_iff]
    refine exists_congr fun own => and_congr_right fun _ => ?_
    have hown : own.map (·.1) = fields.names → ∀ e ∈ own, Row.get? own e.1 = some e.2 :=
      fun hnames e he => (Row.get?_eq_some (hnames ▸ hn)).2 he
    constructor
    · intro h
      exact (fields.recovers_iff hfields own own (hown (fields.names_of_recovers own own h))).1 h
    · intro h
      exact (fields.recovers_iff hfields own own (hown (fields.names_of_fits own own h.2))).2 h

/-- Fields give back exactly the attributes that have plain data, and that are what the fields take from it. -/
theorem FieldList.recovers_iff (fields : FieldList) (hd : fields.Distinct) (all own : Row)
    (hown : ∀ e ∈ own, all.get? e.1 = some e.2) :
    fields.Recovers all own ↔ (∀ e ∈ own, ∃ w, e.2.plain = .ok w) ∧ fields.Fits all own := by
  cases fields with
  | nil =>
    refine ⟨fun h => ?_, And.right⟩
    obtain rfl := h
    exact ⟨List.forall_mem_nil _, rfl⟩
  | cons name label type fallback rest =>
    obtain ⟨htype, hrest⟩ := hd
    -- under its own name a field finds its own value
    have hfield : ∀ v, all.get? name = some v →
        ((if label = name then type.Recovers v
          else (∃ w, v.plain = .ok w) ∧ type.Finds fallback (all.get? label) v) ↔
        (∃ w, v.plain = .ok w) ∧ type.Finds fallback (all.get? label) v) := by
      intro v hv
      split
      · rename_i hlabel
        rw [hlabel, hv, type.recovers_iff htype v]
        exact ⟨fun ⟨w, hw, hfit⟩ => ⟨⟨w, hw⟩, w, hw, hfit⟩, And.right⟩
      · exact Iff.rfl
    constructor
    · rintro ⟨v, others, rfl, hv, hothers⟩
      obtain ⟨hhead, htail⟩ := List.forall_mem_cons.1 hown
      obtain ⟨hplain, hfinds⟩ := (hfield v hhead).1 hv
      obtain ⟨hplains, hfits⟩ := (rest.recovers_iff hrest all others htail).1 hothers
      exact ⟨List.forall_mem_cons.2 ⟨hplain, hplains⟩, v, others, rfl, hfinds, hfits⟩
    · rintro ⟨hplains, v, others, rfl, hfinds, hfits⟩
      obtain ⟨hhead, htail⟩ := List.forall_mem_cons.1 hown
      obtain ⟨hplain, hplains⟩ := List.forall_mem_cons.1 hplains
      exact ⟨v, others, rfl, (hfield v hhead).2 ⟨hplain, hfinds⟩,
        (rest.recovers_iff hrest all others htail).2 ⟨hplains, hfits⟩⟩

end

end RecordSql
