import RecordSql.Proofs.Outcome
import RecordSql.Proofs.Result.Row
import RecordSql.Value.Plain

/-!
# Plain data of records

What plain data is made of a value is plain: making plain data of it again leaves it as it is. So the fields of a record
of a schema are the same once they have been replaced by plain data of them.
-/

namespace RecordSql.Value

/-! ### Plain data is plain -/

theorem plainFields_eq_map (row : Row) : plainFields row = row.map fun e => (e.1, e.2.plain) := by
  induction row with
  | nil => rfl
  | cons e row ih =>
    rw [plainFields, ih]
    rfl

theorem plainAll_self {vs : List Value} (h : ∀ v ∈ vs, v.plain = .ok v) : plainAll vs = .ok vs := by
  induction vs with
  | nil => rfl
  | cons v vs ih =>
    obtain ⟨hv, hrest⟩ := List.forall_mem_cons.1 h
    rw [plainAll, hv, ih hrest]
    rfl

/-- Entries of plain data, whose keys can be keys. -/
def PlainEntries (entries : List (Value × Value)) : Prop :=
  ∀ e ∈ entries, e.1.plain = .ok e.1 ∧ e.2.plain = .ok e.2 ∧ e.1.checkKey = .ok ()

theorem plainEntries_self {entries : List (Value × Value)} (h : PlainEntries entries) :
    plainEntries entries = .ok entries := by
  induction entries with
  | nil => rfl
  | cons e entries ih =>
    obtain ⟨k, v⟩ := e
    obtain ⟨⟨hk, hv, hkey⟩, hrest⟩ :
        (k.plain = .ok k ∧ v.plain = .ok v ∧ k.checkKey = .ok ()) ∧ PlainEntries entries := List.forall_mem_cons.1 h
    rw [plainEntries, hk, hv, ih hrest]
    show (k.checkKey >>= fun _ => _) = _
    rw [hkey]
    rfl

theorem plain_toValue {row : Row} (h : ∀ e ∈ row, e.2.plain = .ok e.2) : row.toValue.plain = .ok row.toValue := by
  have hentries : PlainEntries (Dict.ofRow row) := by
    intro e he
    obtain ⟨⟨name, v⟩, hmem, rfl⟩ := List.mem_map.1 he
    exact ⟨rfl, h _ hmem, rfl⟩
  rw [Row.toValue, plain, plainEntries_self hentries]
  rfl

/-- What outcomes are taken for the fields is among those that are given. -/
theorem mem_of_declaredOf {fields : List String} {outcomes : List (String × Except Failure Value)} {row : Row}
    (h : declaredOf fields outcomes = .ok row) : ∀ e ∈ row, (e.1, .ok e.2) ∈ outcomes := by
  intro e he
  obtain ⟨⟨k, outcome⟩, hmem, hout⟩ := Outcome.of_mem_of_mapM_eq_ok h he
  obtain ⟨v, rfl, rfl⟩ := Outcome.map_eq_ok.1 hout
  exact (List.mem_filter.1 hmem).1

theorem mem_of_completeOf {fields : List String} {outcomes : List (String × Except Failure Value)} {row : Row}
    (h : completeOf fields outcomes = .ok row) : ∀ e ∈ row, (e.1, .ok e.2) ∈ outcomes := by
  intro e he
  obtain ⟨f, -, hout⟩ := Outcome.of_mem_of_mapM_eq_ok h he
  split at hout
  · rename_i outcome hlookup
    obtain ⟨v, rfl, rfl⟩ := Outcome.map_eq_ok.1 hout
    obtain ⟨front, back, hsplit, -⟩ := List.lookup_eq_some_iff.1 hlookup
    simp [hsplit]
  · cases hout

mutual

theorem plain_of_plain (v w : Value) (h : v.plain = .ok w) : w.plain = .ok w := by
  cases v with
  | list vs =>
    rw [plain] at h
    obtain ⟨ws, hws, rfl⟩ := Outcome.map_eq_ok.1 h
    rw [plain, plainAll_self (plain_of_plainAll vs ws hws)]
    rfl
  | tuple vs =>
    rw [plain] at h
    obtain ⟨ws, hws, rfl⟩ := Outcome.map_eq_ok.1 h
    rw [plain, plainAll_self (plain_of_plainAll vs ws hws)]
    rfl
  | set vs =>
    rw [plain] at h
    obtain ⟨ws, hws, h⟩ := Outcome.bind_eq_ok.1 h
    obtain ⟨⟨⟩, hkeys, h⟩ := Outcome.bind_eq_ok.1 h
    obtain rfl := Except.ok.inj h
    rw [plain, plainAll_self (plain_of_plainAll vs ws hws), Outcome.ok_bind, hkeys]
    rfl
  | dict id entries =>
    rw [plain] at h
    obtain ⟨es, hes, rfl⟩ := Outcome.map_eq_ok.1 h
    rw [plain, plainEntries_self (plain_of_plainEntries entries es hes)]
    rfl
  | param kind v =>
    rw [plain] at h
    obtain ⟨x, hx, rfl⟩ := Outcome.map_eq_ok.1 h
    have hkind : kind.symbol.plain = .ok kind.symbol := rfl
    have hentries : ∀ e ∈ ([("kind", kind.symbol), ("value", x)] : Row), e.2.plain = .ok e.2 :=
      List.forall_mem_cons.2 ⟨hkind, List.forall_mem_singleton.2 (plain_of_plain v x hx)⟩
    exact plain_toValue hentries
  | record id cls own inherited =>
    have hown := plain_of_plainFields own
    have hinherited := plain_of_plainFields inherited
    rw [plain] at h
    split at h
    · obtain ⟨row, hrow, rfl⟩ := Outcome.map_eq_ok.1 h
      refine plain_toValue fun e he => ?_
      have hmem := mem_of_declaredOf hrow e he
      rw [plainFields_eq_map] at hmem
      obtain ⟨e', he', heq⟩ := List.mem_map.1 hmem
      exact hown e' he' e.2 (Prod.mk.inj heq).2
    · obtain ⟨row, hrow, rfl⟩ := Outcome.map_eq_ok.1 h
      refine plain_toValue fun e he => ?_
      have hmem := mem_of_completeOf hrow e he
      rw [plainFields_eq_map, plainFields_eq_map] at hmem
      rcases List.mem_append.1 hmem with hmem | hmem
      · obtain ⟨e', he', heq⟩ := List.mem_map.1 hmem
        exact hown e' he' e.2 (Prod.mk.inj heq).2
      · obtain ⟨e', he', heq⟩ := List.mem_map.1 hmem
        exact hinherited e' he' e.2 (Prod.mk.inj heq).2
    · rename_i hschematic hfieldwise
      obtain rfl := Except.ok.inj h
      rw [plain]
      split
      · exact absurd ‹_› hschematic
      · exact absurd ‹_› hfieldwise
      · rfl
  | stream id vs =>
    obtain rfl := Except.ok.inj h
    rfl
  | _ =>
    obtain rfl := Except.ok.inj h
    rfl

theorem plain_of_plainAll (vs ws : List Value) (h : plainAll vs = .ok ws) : ∀ w ∈ ws, w.plain = .ok w := by
  cases vs with
  | nil =>
    cases h
    exact List.forall_mem_nil _
  | cons v vs =>
    rw [plainAll] at h
    obtain ⟨w, hw, h⟩ := Outcome.bind_eq_ok.1 h
    obtain ⟨ws', hws, h⟩ := Outcome.bind_eq_ok.1 h
    obtain rfl := Except.ok.inj h
    exact List.forall_mem_cons.2 ⟨plain_of_plain v w hw, plain_of_plainAll vs ws' hws⟩

theorem plain_of_plainEntries (entries es : List (Value × Value)) (h : plainEntries entries = .ok es) :
    PlainEntries es := by
  cases entries with
  | nil =>
    cases h
    exact List.forall_mem_nil _
  | cons e entries =>
    obtain ⟨k, v⟩ := e
    rw [plainEntries] at h
    obtain ⟨l, hl, h⟩ := Outcome.bind_eq_ok.1 h
    obtain ⟨w, hw, h⟩ := Outcome.bind_eq_ok.1 h
    obtain ⟨⟨⟩, hkey, h⟩ := Outcome.bind_eq_ok.1 h
    obtain ⟨rest, hrest, h⟩ := Outcome.bind_eq_ok.1 h
    obtain rfl := Except.ok.inj h
    exact List.forall_mem_cons.2
      ⟨⟨plain_of_plain k l hl, plain_of_plain v w hw, hkey⟩, plain_of_plainEntries entries rest hrest⟩

theorem plain_of_plainFields (row : Row) : ∀ e ∈ row, ∀ w, e.2.plain = .ok w → w.plain = .ok w := by
  cases row with
  | nil => exact List.forall_mem_nil _
  | cons e row =>
    obtain ⟨k, v⟩ := e
    exact List.forall_mem_cons.2 ⟨fun w hw => plain_of_plain v w hw, plain_of_plainFields row⟩

end

end RecordSql.Value
