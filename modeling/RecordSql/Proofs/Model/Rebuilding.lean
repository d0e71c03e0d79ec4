import Mathlib.Data.List.Nodup
import RecordSql.Proofs.Model.Attributes

/-!
# Records that are built again

A constructor gives each attribute of a new record the value that it was called with, or a default. So a call with the
values that a record has, under the names that the constructor accepts, builds the same record again.
-/

namespace RecordSql

namespace Row

variable {row : Row} {name : String}

theorem has_iff : row.has name = true ↔ ∃ v, row.get? name = some v := by
  induction row with
  | nil => simp [has, get?]
  | cons e row ih =>
    obtain ⟨k, w⟩ := e
    rw [get?_cons]
    by_cases hk : name = k
    · simp [has, hk]
    · have hrest : Row.has ((k, w) :: row) name = Row.has row name := by
        simp [has, beq_false_of_ne (Ne.symm hk)]
      rw [hrest, ih, if_neg hk]

/-- What stands under a name in a row of named values, if the names are different. -/
theorem get?_filterMap {α : Type} {l : List α} {label : α → String} {value : α → Option Value}
    (hn : (l.map label).Nodup) {a : α} (ha : a ∈ l) :
    Row.get? (l.filterMap fun a => (value a).map (label a, ·)) (label a) = value a := by
  induction l with
  | nil => cases ha
  | cons b l ih =>
    obtain ⟨hb, hl⟩ := List.nodup_cons.1 hn
    have hother : ∀ c ∈ l, label c ≠ label b := fun c hc hsame => hb (List.mem_map.2 ⟨c, hc, hsame⟩)
    rcases List.mem_cons.1 ha with rfl | ha
    · cases hv : value a with
      | some v => simp [hv, get?_cons]
      | none =>
        simp only [List.filterMap_cons, hv, Option.map_none]
        refine Option.eq_none_iff_forall_ne_some.2 fun v hget => ?_
        obtain ⟨c, hc, heq⟩ := List.mem_filterMap.1 (mem_of_get? hget)
        obtain ⟨w, -, heq⟩ := Option.map_eq_some_iff.1 heq
        exact hother c hc (Prod.mk.inj heq).1
    · cases hv : value b with
      | some v => simp only [List.filterMap_cons, hv, Option.map_some, get?_cons, if_neg (hother a ha), ih hl ha]
      | none => simp only [List.filterMap_cons, hv, Option.map_none, ih hl ha]

end Row

/-! ### The values of a new record -/

/-- The value that a new record has for a field. -/
def Field.assigned (f : Field) (given : Row) : Option Value :=
  match f.role, given.get? f.name, f.fallback with
  | .transient, _, _ => none
  | .argument, some v, _ => some v
  | .argument, none, .shared v => some v
  | _, _, .fresh v => some v
  | _, _, _ => none

/-- The value for the field that records read from their class. -/
def Field.inherited (f : Field) : Option Value :=
  match f.role, f.fallback with
  | .argument, _ => none
  | _, .shared v => some v
  | _, _ => none

/-- The value that a new record has for a parameter. -/
def Parameter.assigned (p : Parameter) (given : Row) : Option Value :=
  match p.mode with
  | .otherPositions => some (.tuple [])
  | .otherNames => none
  | .positionOnly => p.fallback
  | _ => (given.get? p.name).or p.fallback

theorem Parameter.assigned_of_named {p : Parameter} {given : Row} (h : p.mode = .ordinary ∨ p.mode = .nameOnly) :
    p.assigned given = (given.get? p.name).or p.fallback := by
  rcases h with h | h <;> rw [assigned, h]

theorem Parameter.assigned_of_unnamed {p : Parameter} (h : ¬(p.mode = .ordinary ∨ p.mode = .nameOnly))
    (given given' : Row) : p.assigned given = p.assigned given' := by
  rw [not_or] at h
  rw [assigned, assigned]
  cases hmode : p.mode with
  | ordinary => exact absurd hmode h.1
  | nameOnly => exact absurd hmode h.2
  | positionOnly => rfl
  | otherPositions => rfl
  | otherNames => rfl

namespace Model

variable {fields : List Field} {parameters : List Parameter} {given given' : Row}

theorem assignFields_eq (fields : List Field) (given : Row) :
    assignFields fields given = fields.filterMap fun f => (f.assigned given).map (f.name, ·) := by
  induction fields with
  | nil => rfl
  | cons f fields ih =>
    rw [assignFields, ih, List.filterMap_cons, Field.assigned]
    cases f.role <;> cases given.get? f.name <;> cases f.fallback <;> rfl

theorem classAttributes_eq (fields : List Field) :
    classAttributes fields = fields.filterMap fun f => f.inherited.map (f.name, ·) := by
  refine List.filterMap_congr fun f _ => ?_
  rw [Field.inherited]
  cases f.role <;> cases f.fallback <;> rfl

theorem assignParameters_eq (h : isOpen parameters = false) (given : Row) :
    assignParameters parameters given = parameters.filterMap fun p => (p.assigned given).map (p.name, ·) := by
  rw [List.filterMap_eq_flatMap_toList, assignParameters, h]
  refine List.flatMap_congr fun p _ => ?_
  rw [assignParameter, Parameter.assigned]
  cases p.mode <;> rfl

/-! ### Calls of a constructor -/

/-- The call has every argument that has no default. -/
def Completes (m : Model) (given : Row) : Prop :=
  match m with
  | .constructed _ parameters _ => ∀ p ∈ parameters, p.mode = .ordinary ∨ p.mode = .positionOnly ∨ p.mode = .nameOnly →
      p.fallback = none → p.mode ≠ .positionOnly ∧ given.has p.name
  | m => ∀ name ∈ m.needs, given.has name

/-- All that a row can have a value for is taken. -/
theorem exists_takes {m : Model} {names : List String} (h : m.accepted = some names) :
    ∃ taken, m.takes = some taken ∧ names ⊆ taken := by
  cases m with
  | constructed name parameters checks => exact ⟨names, h, List.Subset.refl names⟩
  | schematic schema => exact ⟨names, h, List.Subset.refl names⟩
  | fieldwise name frozen fields checks =>
    obtain rfl := Option.some.inj h
    refine ⟨_, rfl, List.map_subset _ fun f hf => ?_⟩
    obtain ⟨hmem, hrole⟩ := List.mem_filter.1 hf
    rw [decide_eq_true_eq] at hrole
    exact List.mem_filter.2 ⟨hmem, by simp [hrole]⟩

/-- Under names of their own, arguments that records do not keep have no value in a row of the others. -/
theorem not_has_transient (hn : (fields.map Field.name).Nodup)
    (hnames : ∀ e ∈ given, e.1 ∈ (fields.filter (·.role = .argument)).map Field.name) {f : Field} (hf : f ∈ fields)
    (hrole : f.role = .transient) : given.has f.name = false := by
  by_contra hhas
  rw [Bool.not_eq_false] at hhas
  obtain ⟨v, hv⟩ := Row.has_iff.1 hhas
  obtain ⟨g, hg, hname⟩ := List.mem_map.1 (hnames _ (Row.mem_of_get? hv))
  obtain ⟨hmem, hargument⟩ := List.mem_filter.1 hg
  obtain rfl := List.inj_on_of_nodup_map hn hmem hf hname
  simp [hrole] at hargument

theorem required_subset_needs (m : Model) : m.required ⊆ m.needs := by
  cases m with
  | constructed name parameters checks => exact List.Subset.refl _
  | schematic schema => exact List.Subset.refl _
  | fieldwise name frozen fields checks =>
    refine List.map_subset _ fun f hf => ?_
    obtain ⟨hmem, hneeded⟩ := List.mem_filter.1 hf
    rw [Bool.and_eq_true, decide_eq_true_eq] at hneeded
    exact List.mem_filter.2 ⟨hmem, by simp [hneeded]⟩

theorem isOpen_of_accepted {name : String} {checks : List Check} {names : List String}
    (h : (constructed name parameters checks).accepted = some names) :
    isOpen parameters = false ∧ names = (named parameters).map Parameter.name := by
  rw [accepted] at h
  split at h
  · cases h
  · rename_i hopen
    exact ⟨Bool.eq_false_iff.2 hopen, (Option.some.inj h).symm⟩

theorem check_eq_ok_iff {b : Bool} {f : Failure} :
    (if b = true then throw f else pure () : Except Failure Unit) = .ok () ↔ b = false := by
  cases b <;> simp

theorem checks_eq_ok_iff {b b' : Bool} {f f' : Failure} :
    (do if b = true then throw f
        if b' = true then throw f' : Except Failure Unit) = .ok () ↔ b = false ∧ b' = false := by
  cases b <;> cases b' <;> simp

theorem isEmpty_filter_iff {α : Type} {l : List α} {p : α → Bool} :
    (!(l.filter p).isEmpty) = false ↔ ∀ a ∈ l, p a = false := by
  simp

theorem lacks_eq_false_iff {p : Parameter} :
    (p.fallback.isNone && !(decide (p.mode ≠ .positionOnly) && given.has p.name)) = false ↔
      (p.fallback = none → p.mode ≠ .positionOnly ∧ given.has p.name = true) := by
  cases p.fallback <;> simp

/-- A call is accepted if it names only arguments, and has all that are needed. -/
theorem checkCall_eq_ok_iff {m : Model} {names : List String} (h : m.takes = some names) :
    m.checkCall given = .ok () ↔ (∀ e ∈ given, e.1 ∈ names) ∧ m.Completes given := by
  rw [checkCall, h]
  cases hf : given.find? fun x => !names.contains x.1 with
  | some e =>
    have hmem := List.mem_of_find?_eq_some hf
    have hnot := List.find?_some hf
    refine iff_of_false ?_ fun hall => ?_
    · dsimp only
      rw [hf]
      rintro ⟨⟩
    · simp [hall.1 e hmem] at hnot
  | none =>
    have hall : ∀ e ∈ given, e.1 ∈ names := by simpa using List.find?_eq_none.1 hf
    rw [and_iff_right hall]
    dsimp only
    rw [hf]
    cases m with
    | fieldwise name frozen fields checks =>
      dsimp only
      exact check_eq_ok_iff.trans (by simp [Completes])
    | schematic schema =>
      dsimp only
      exact check_eq_ok_iff.trans (by simp [Completes])
    | constructed name parameters checks =>
      have haccepted : (constructed name parameters checks).accepted = some names := h
      have hself : namesSelf parameters given = false := by simp [namesSelf, (isOpen_of_accepted haccepted).1]
      dsimp only
      rw [hself]
      refine Iff.trans checks_eq_ok_iff ?_
      simp only [List.isEmpty_map, isEmpty_filter_iff, lacks_eq_false_iff, List.mem_filter, decide_eq_true_eq,
        Completes]
      constructor
      · rintro ⟨hpositions, hnames⟩ p hp (hmode | hmode | hmode)
        · exact hpositions p ⟨hp, .inl hmode⟩
        · exact hpositions p ⟨hp, .inr hmode⟩
        · exact hnames p ⟨hp, hmode⟩
      · intro hall
        refine ⟨fun p hp => hall p hp.1 ?_, fun p hp => hall p hp.1 (.inr (.inr hp.2))⟩
        exact hp.2.imp_right .inl

theorem Completes.has_required {m : Model} (h : m.Completes given) : ∀ name ∈ m.required, given.has name := by
  cases m with
  | constructed name parameters checks =>
    intro n hn
    obtain ⟨p, hp, rfl⟩ := List.mem_map.1 hn
    obtain ⟨hnamed, hnone⟩ := List.mem_filter.1 hp
    obtain ⟨hmem, hmode⟩ := List.mem_filter.1 hnamed
    have hmode : p.mode = .ordinary ∨ p.mode = .nameOnly := of_decide_eq_true hmode
    exact (h p hmem (hmode.imp_right .inr) (Option.isNone_iff_eq_none.1 hnone)).2
  | fieldwise name frozen fields checks => exact fun n hn => h n (required_subset_needs _ hn)
  | schematic schema => exact h

/-! ### The same call again -/

/-- The calls give the attributes of a new record the same values. -/
def AssignsAlike (m : Model) (given given' : Row) : Prop :=
  match m with
  | .fieldwise _ _ fields _ => ∀ f ∈ fields, f.assigned given' = f.assigned given
  | .constructed _ parameters _ => ∀ p ∈ parameters, p.assigned given' = p.assigned given
  | .schematic _ => False

theorem checked_eq_ok_iff {α : Type} {x y : Except Failure Unit} {a b : α} :
    (do x; y; return a : Except Failure α) = .ok b ↔ x = .ok () ∧ y = .ok () ∧ b = a := by
  cases x <;> cases y <;> simp [eq_comm]

theorem build_fieldwise_eq_ok_iff {name : String} {frozen : Bool} {checks : List Check} {record : Value} :
    (fieldwise name frozen fields checks).build given = .ok record ↔
      (fieldwise name frozen fields checks).checkCall given = .ok () ∧
      runChecks checks (assignFields fields given) (classAttributes fields) = .ok () ∧
      record = .record none (fieldwise name frozen fields checks).recordClass (assignFields fields given)
        (classAttributes fields) :=
  checked_eq_ok_iff

theorem build_constructed_eq_ok_iff {name : String} {checks : List Check} {record : Value} :
    (constructed name parameters checks).build given = .ok record ↔
      (constructed name parameters checks).checkCall given = .ok () ∧
      runChecks checks (assignParameters parameters given) [] = .ok () ∧
      record = .record none (constructed name parameters checks).recordClass (assignParameters parameters given)
        [] :=
  checked_eq_ok_iff

/-- Calls that are taken alike and assign the same values come to the same. -/
theorem build_congr {m : Model} {names : List String} (ha : m.accepted = some names)
    (hcall : m.checkCall given' = m.checkCall given) (hsame : m.AssignsAlike given given') :
    m.build given' = m.build given := by
  cases m with
  | fieldwise name frozen fields checks =>
    have hown : assignFields fields given' = assignFields fields given := by
      rw [assignFields_eq, assignFields_eq]
      exact List.filterMap_congr fun f hf => by rw [hsame f hf]
    simp only [build, hcall, hown]
  | constructed name parameters checks =>
    have hopen := (isOpen_of_accepted ha).1
    have hown : assignParameters parameters given' = assignParameters parameters given := by
      rw [assignParameters_eq hopen, assignParameters_eq hopen]
      exact List.filterMap_congr fun p hp => by rw [hsame p hp]
    simp only [build, hcall, hown]
  | schematic schema => exact hsame.elim

/-- Calls that assign the same values build the same record. -/
theorem build_again {m : Model} {names : List String} {record : Value} (ha : m.accepted = some names)
    (h : m.build given = .ok record) (hnames : ∀ e ∈ given', e.1 ∈ names) (hcomplete : m.Completes given')
    (hsame : m.AssignsAlike given given') : m.build given' = .ok record := by
  have hcall' : m.checkCall given' = .ok () := by
    obtain ⟨taken, htakes, hsub⟩ := exists_takes ha
    exact (checkCall_eq_ok_iff htakes).2 ⟨fun e he => hsub (hnames e he), hcomplete⟩
  have hcall : m.checkCall given = .ok () := by
    cases m with
    | fieldwise name frozen fields checks => exact (build_fieldwise_eq_ok_iff.1 h).1
    | constructed name parameters checks => exact (build_constructed_eq_ok_iff.1 h).1
    | schematic schema => exact hsame.elim
  rw [build_congr ha (hcall'.trans hcall.symm) hsame, h]

end Model

theorem Mapper.mem_accepted_of_acceptedPart {m : Mapper} {names : List String} (ha : m.model.accepted = some names)
    {row : Row} {e : String × Value} (h : e ∈ m.acceptedPart row) : e.1 ∈ names := by
  rw [acceptedPart, ha] at h
  simpa using (List.mem_filter.1 h).2

/-- A record that a mapper makes is built from the part of the row that is accepted. -/
theorem Mapper.build_of_mapOne {m : Mapper} {row : Row} {record : Value} (hs : ∀ schema, m.model ≠ .schematic schema)
    (h : m.mapOne row = .ok record) : m.model.build (m.acceptedPart (m.rename row)) = .ok record := by
  rw [mapOne_eq_mapThrough hs] at h
  exact construct_of_mapThrough h

/-- From a row of arguments a mapper builds what the constructor does. -/
theorem Mapper.mapOne_of_build {m : Model} {names : List String} {row : Row} {record : Value}
    (hs : ∀ schema, m ≠ .schematic schema) (ha : m.accepted = some names) (hnames : ∀ e ∈ row, e.1 ∈ names)
    (hcomplete : m.Completes row) (h : m.build row = .ok record) : (Mapper.mk m []).mapOne row = .ok record := by
  have hmissing : (Mapper.mk m []).missing row = [] := Mapper.missing_eq_nil hcomplete.has_required
  have haccepted : (Mapper.mk m []).acceptedPart row = row := by
    rw [acceptedPart, ha]
    exact List.filter_eq_self.2 fun e he => by simpa using hnames e he
  have hrename : (Mapper.mk m []).rename row = row := rfl
  rw [mapOne_eq_mapThrough hs, mapThrough, hrename]
  dsimp only
  rw [hmissing, haccepted, h]
  rfl

end RecordSql
