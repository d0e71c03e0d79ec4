import Mathlib.Data.List.Sort
import RecordSql.Proofs.Model.Rebuilding

/-!
# Rows that a model accepts

A mapper turns a row into a call of the constructor: columns stand for fields, and those of no accepted field are left
out. If a required field has no column there is no call, and the missing fields are reported. Otherwise the call has
the accepted names only and all that are required, whatever the constructor makes of it. What comes of a row is decided
by the values for the accepted fields alone.

* `Model.checkCall_eq`: the constructor that is declared takes such a call, unless it needs what no row can have.
* `Mapper.mapThrough_eq`: a mapper looks for missing fields, or else calls the constructor.
* `Mapper.settled_by_fields`: the outcome of a row, by its values for the fields.
-/

namespace RecordSql

/-! ### Constructors that are called by name -/

namespace Model

/-- The parameters of a model that is declared by its constructor. -/
def parameters : Model → List Parameter
  | .constructed _ parameters _ => parameters
  | .fieldwise _ _ _ _ | .schematic _ => []

/-- The checks that a new record has to pass. -/
def checks : Model → List Check
  | .fieldwise _ _ _ checks | .constructed _ _ checks => checks
  | .schematic _ => []

/-- The arguments that a call cannot do without, though no row can have a value for them: those that records do not
keep. -/
def unlisted : Model → List String
  | .fieldwise _ _ fields _ => (fields.filter fun f => f.role = .transient && f.isRequired).map Field.name
  | .constructed _ _ _ | .schematic _ => []

/-- The names that a model is declared with. -/
def declared : Model → List String
  | .fieldwise _ _ fields _ => fields.map Field.name
  | .constructed _ parameters _ => parameters.map Parameter.name
  | .schematic schema => schema.fields.names

/-- A model of different names whose constructor is called with those that rows can have values for: it does not take any
name, and what it takes by position only has a default. -/
structure CalledByName (m : Model) (names : List String) : Prop where
  unschematic : ∀ schema, m ≠ .schematic schema
  distinct : m.declared.Nodup
  accepted : m.accepted = some names
  positions : ∀ p ∈ m.parameters, p.mode = .positionOnly → p.fallback.isSome

/-- A call with different names, all of them accepted, and none that is required left out. -/
structure Fits (m : Model) (names : List String) (given : Row) : Prop where
  once : (given.map (·.1)).Nodup
  accepted : ∀ e ∈ given, e.1 ∈ names
  complete : ∀ name ∈ m.required, given.has name

/-- The order of the arguments makes no difference to the constructor. -/
def Unordered (m : Model) (names : List String) (construct : Row → Except Failure Value) : Prop :=
  ∀ given given' : Row, m.Fits names given → given'.Perm given → construct given' = construct given

/-- The constructor does not report fields as missing when none is. -/
def Unreporting (m : Model) (names : List String) (construct : Row → Except Failure Value) : Prop :=
  ∀ given, m.Fits names given → ∀ target fields, construct given ≠ .error (.missingFields target fields)

variable {m : Model} {names : List String} {given given' : Row}

theorem Fits.get?_of_perm (h : m.Fits names given) (hperm : given'.Perm given) (name : String) :
    given'.get? name = given.get? name := by
  have honce : (given'.map (·.1)).Nodup := (hperm.map _).nodup_iff.2 h.once
  ext v
  rw [Row.get?_eq_some honce, Row.get?_eq_some h.once, hperm.mem_iff]

theorem Fits.of_perm (h : m.Fits names given) (hperm : given'.Perm given) : m.Fits names given' where
  once := (hperm.map _).nodup_iff.2 h.once
  accepted e he := h.accepted e (hperm.mem_iff.1 he)
  complete name hname := by
    rw [Row.has_iff, h.get?_of_perm hperm, ← Row.has_iff]
    exact h.complete name hname

theorem completes_constructed {name : String} {parameters : List Parameter} {checks : List Check}
    (hpositions : ∀ p ∈ parameters, p.mode = .positionOnly → p.fallback.isSome)
    (h : ∀ n ∈ (constructed name parameters checks).required, given.has n) :
    (constructed name parameters checks).Completes given := by
  intro p hp hmode hnone
  have hposition : p.mode ≠ .positionOnly := by
    intro hp'
    have hsome := hpositions p hp hp'
    rw [hnone] at hsome
    cases hsome
  refine ⟨hposition, h p.name (List.mem_map.2 ⟨p, ?_, rfl⟩)⟩
  have hnamed : p.mode = .ordinary ∨ p.mode = .nameOnly := by
    rcases hmode with hmode | hmode | hmode
    · exact .inl hmode
    · exact absurd hmode hposition
    · exact .inr hmode
  simp [named, hp, hnamed, hnone]

/-- What the fields of a list leave to be asked for is what records do not keep. -/
theorem filter_needs_fieldwise {name : String} {frozen : Bool} {fields : List Field} {checks : List Check}
    (hn : (fields.map Field.name).Nodup)
    (hnames : ∀ e ∈ given, e.1 ∈ (fields.filter (·.role = .argument)).map Field.name)
    (hrequired : ∀ n ∈ (fieldwise name frozen fields checks).required, given.has n) :
    ((fieldwise name frozen fields checks).needs.filter fun n => !given.has n) =
      (fieldwise name frozen fields checks).unlisted := by
  rw [needs, unlisted, List.filter_map, List.filter_filter]
  refine congrArg _ (List.filter_congr fun f hf => ?_)
  cases hrole : f.role with
  | argument =>
    cases hneeded : f.isRequired with
    | false => simp
    | true =>
      have hhas := hrequired f.name (List.mem_map.2 ⟨f, List.mem_filter.2 ⟨hf, by simp [hrole, hneeded]⟩, rfl⟩)
      simp [hhas]
  | preset => simp
  | transient => simp [not_has_transient hn hnames hf hrole]

/-- Nothing is left to be asked for but what no row can have a value for. -/
theorem CalledByName.filter_needs (h : m.CalledByName names) (hfits : m.Fits names given) :
    (m.needs.filter fun n => !given.has n) = m.unlisted := by
  cases m with
  | schematic schema => exact absurd rfl (h.unschematic schema)
  | constructed n parameters checks =>
    exact List.filter_eq_nil_iff.2 fun n hn => by simp [hfits.complete n hn]
  | fieldwise n frozen fields checks =>
    obtain rfl := Option.some.inj h.accepted
    exact filter_needs_fieldwise h.distinct hfits.accepted hfits.complete

/-- A call that fits is taken, if the constructor needs nothing that no row can have a value for. -/
theorem CalledByName.checkCall_eq (h : m.CalledByName names) (hfits : m.Fits names given) :
    m.checkCall given = if m.unlisted = [] then .ok () else .error (lacking m.name "positional" m.unlisted) := by
  cases m with
  | schematic schema => exact absurd rfl (h.unschematic schema)
  | constructed n parameters checks =>
    have htakes : (constructed n parameters checks).takes = some names := h.accepted
    rw [(checkCall_eq_ok_iff htakes).2 ⟨hfits.accepted, completes_constructed h.positions hfits.complete⟩]
    rfl
  | fieldwise n frozen fields checks =>
    obtain ⟨taken, htakes, hsub⟩ := exists_takes h.accepted
    have hfound : (given.find? fun e => !taken.contains e.1) = none := by
      rw [List.find?_eq_none]
      intro e he
      simp [hsub (hfits.accepted e he)]
    rw [checkCall, htakes]
    dsimp only
    rw [hfound, h.filter_needs hfits]
    cases (fieldwise n frozen fields checks).unlisted <;> rfl

theorem CalledByName.required_subset (h : m.CalledByName names) : m.required ⊆ names := by
  intro name hname
  cases m with
  | schematic schema => exact absurd rfl (h.unschematic schema)
  | fieldwise n frozen fields checks =>
    obtain rfl := Option.some.inj h.accepted
    obtain ⟨f, hf, rfl⟩ := List.mem_map.1 hname
    obtain ⟨hmem, hargument⟩ := List.mem_filter.1 hf
    rw [Bool.and_eq_true] at hargument
    exact List.mem_map.2 ⟨f, List.mem_filter.2 ⟨hmem, hargument.1⟩, rfl⟩
  | constructed n parameters checks =>
    obtain ⟨-, rfl⟩ := isOpen_of_accepted h.accepted
    obtain ⟨p, hp, rfl⟩ := List.mem_map.1 hname
    exact List.mem_map.2 ⟨p, (List.mem_filter.1 hp).1, rfl⟩

/-- Calls with the same values for the accepted names assign the same. -/
theorem CalledByName.assignsAlike (h : m.CalledByName names)
    (hsame : ∀ name ∈ names, given'.get? name = given.get? name) : m.AssignsAlike given given' := by
  cases m with
  | schematic schema => exact absurd rfl (h.unschematic schema)
  | fieldwise n frozen fields checks =>
    obtain rfl := Option.some.inj h.accepted
    intro f hf
    rw [Field.assigned, Field.assigned]
    cases hrole : f.role with
    | argument => rw [hsame f.name (List.mem_map.2 ⟨f, List.mem_filter.2 ⟨hf, decide_eq_true hrole⟩, rfl⟩)]
    | preset =>
      -- an attribute that is no argument does not look at the call
      cases given'.get? f.name <;> cases given.get? f.name <;> cases f.fallback <;> rfl
    | transient => rfl
  | constructed n parameters checks =>
    obtain ⟨-, rfl⟩ := isOpen_of_accepted h.accepted
    intro p hp
    by_cases hnamed : p.mode = .ordinary ∨ p.mode = .nameOnly
    · have hmem : p.name ∈ (named parameters).map Parameter.name :=
        List.mem_map.2 ⟨p, List.mem_filter.2 ⟨hp, by simpa using hnamed⟩, rfl⟩
      rw [Parameter.assigned_of_named hnamed, Parameter.assigned_of_named hnamed, hsame p.name hmem]
    · exact Parameter.assigned_of_unnamed hnamed given' given

theorem of_runChecks_eq_error {checks : List Check} {own inherited : Row} {f : Failure}
    (h : runChecks checks own inherited = .error f) : f = .absentAttribute ∨ ∃ c ∈ checks, f = c.failure := by
  obtain ⟨c, hc, hcheck⟩ := Outcome.of_forM_eq_error h
  split at hcheck
  · exact .inl (Except.error.inj hcheck).symm
  · split at hcheck
    · cases hcheck
    · exact .inr ⟨c, hc, (Except.error.inj hcheck).symm⟩

theorem build_of_checkCall_eq_error (hs : ∀ schema, m ≠ .schematic schema) {f : Failure}
    (h : m.checkCall given = .error f) : m.build given = .error f := by
  cases m with
  | schematic schema => exact absurd rfl (hs schema)
  | fieldwise name frozen fields checks =>
    simp only [build, h]
    rfl
  | constructed name parameters checks =>
    simp only [build, h]
    rfl

/-- A constructor fails only if it does not take the call, the record does not pass a check, or a check finds no
attribute. -/
theorem of_build_eq_error (hs : ∀ schema, m ≠ .schematic schema) {f : Failure} (hf : m.build given = .error f) :
    m.checkCall given = .error f ∨ f = .absentAttribute ∨ ∃ c ∈ m.checks, f = c.failure := by
  have hchecks : ∀ {checks : List Check} {own inherited : Row} {record : Value},
      (do runChecks checks own inherited; return record : Except Failure Value) = .error f →
        f = .absentAttribute ∨ ∃ c ∈ checks, f = c.failure := by
    intro checks own inherited record hf
    cases hrun : runChecks checks own inherited with
    | ok _ =>
      rw [hrun] at hf
      cases hf
    | error f' =>
      rw [hrun] at hf
      cases hf
      exact of_runChecks_eq_error hrun
  cases hcall : m.checkCall given with
  | error f' =>
    rw [build_of_checkCall_eq_error hs hcall] at hf
    cases hf
    exact .inl rfl
  | ok _ =>
    refine .inr ?_
    cases m with
    | schematic schema => exact absurd rfl (hs schema)
    | fieldwise name frozen fields checks =>
      simp only [build, hcall] at hf
      exact hchecks hf
    | constructed name parameters checks =>
      simp only [build, hcall] at hf
      exact hchecks hf

theorem CalledByName.unordered_build (h : m.CalledByName names) : m.Unordered names m.build := by
  intro given given' hfits hperm
  refine build_congr h.accepted ?_ (h.assignsAlike fun name _ => hfits.get?_of_perm hperm name)
  rw [h.checkCall_eq hfits, h.checkCall_eq (hfits.of_perm hperm)]

theorem CalledByName.unreporting_build (h : m.CalledByName names)
    (hchecks : ∀ c ∈ m.checks, ∀ target fields, c.failure ≠ .missingFields target fields) :
    m.Unreporting names m.build := by
  intro given hfits target fields hbuild
  obtain hf | hf | ⟨c, hc, hf⟩ := of_build_eq_error h.unschematic hbuild
  · rw [h.checkCall_eq hfits] at hf
    split at hf <;> cases hf
  · cases hf
  · exact hchecks c hc target fields hf.symm

end Model

/-! ### Rows and fields -/

namespace Mapper

variable {m : Mapper} {names fields fields' : List String} {row : Row}

/-- The field that a column stands for. -/
def fieldFor (m : Mapper) (column : String) : String := (m.aliases.lookup column).getD column

/-- The value that a row has for a field, in the column that stands for it. -/
def valueFor (m : Mapper) (row : Row) (name : String) : Option Value :=
  (row.find? fun e => m.fieldFor e.1 = name).map (·.2)

/-- No two columns of the row stand for the same field. -/
def Separates (m : Mapper) (row : Row) : Prop := (row.map fun e => m.fieldFor e.1).Nodup

instance (m : Mapper) (row : Row) : Decidable (m.Separates row) :=
  inferInstanceAs (Decidable (row.map fun e => m.fieldFor e.1).Nodup)

theorem map_fst_fields (m : Mapper) (row : Row) :
    (row.map fun e => (m.fieldFor e.1, e.2)).map (·.1) = row.map fun e => m.fieldFor e.1 := by
  rw [List.map_map]
  rfl

/-- Columns of different fields are renamed in their places. -/
theorem rename_eq (h : m.Separates row) : m.rename row = row.map fun e => (m.fieldFor e.1, e.2) := by
  rw [rename]
  split
  · rename_i hnone
    have hfield : ∀ column, m.fieldFor column = column := by
      intro column
      rw [fieldFor, List.isEmpty_iff.1 hnone]
      rfl
    simp only [hfield]
    exact (List.map_id row).symm
  · have hset : Row.update [] (row.map fun e => (m.fieldFor e.1, e.2)) = row.map fun e => (m.fieldFor e.1, e.2) := by
      refine Row.update_eq_append ?_
      rw [List.nil_append, map_fst_fields]
      exact h
    rw [Row.update, List.foldl_map] at hset
    exact hset

theorem get?_rename (h : m.Separates row) (name : String) : (m.rename row).get? name = m.valueFor row name := by
  rw [rename_eq h, valueFor]
  clear h
  induction row with
  | nil => rfl
  | cons e row ih =>
    rw [List.map_cons, Row.get?_cons, List.find?_cons, ih]
    by_cases hname : name = m.fieldFor e.1
    · simp [hname]
    · simp [hname, Ne.symm hname]

theorem nodup_rename (h : m.Separates row) : ((m.rename row).map (·.1)).Nodup := by
  rw [rename_eq h, map_fst_fields]
  exact h

theorem has_rename_iff (h : m.Separates row) {name : String} :
    (m.rename row).has name = false ↔ m.valueFor row name = none := by
  rw [← get?_rename h, ← Bool.not_eq_true, Row.has_iff, ← Option.isSome_iff_exists, Option.not_isSome_iff_eq_none]

/-! ### Missing fields -/

/-- The required fields that a row has no column for, each once and in alphabetical order. -/
structure Lacks (m : Mapper) (row : Row) (fields : List String) : Prop where
  sorted : fields.Pairwise (· < ·)
  members : ∀ name, name ∈ fields ↔ name ∈ m.model.required ∧ m.valueFor row name = none

theorem Lacks.unique (h : m.Lacks row fields) (h' : m.Lacks row fields') : fields = fields' :=
  h.sorted.eq_of_mem_iff h'.sorted fun name => (h.members name).trans (h'.members name).symm

theorem lacks_missing (h : m.Separates row) : m.Lacks row (m.missing (m.rename row)) := by
  constructor
  · have hnodup : (m.missing (m.rename row)).Nodup := (List.mergeSort_perm _ _).nodup_iff.2 (nodup_eraseDups _)
    have hsorted : (m.missing (m.rename row)).Pairwise (· ≤ ·) := by
      have htrans : ∀ a b c : String, decide (a ≤ b) → decide (b ≤ c) → decide (a ≤ c) := by
        simpa using fun a b c => String.le_trans
      have htotal : ∀ a b : String, decide (a ≤ b) || decide (b ≤ a) := by
        simpa using String.le_total
      simpa [missing] using List.pairwise_mergeSort htrans htotal _
    exact hsorted.imp₂ (fun a b hle hne => Std.lt_of_le_of_ne hle hne) hnodup
  · intro name
    rw [missing, List.mem_mergeSort, List.mem_eraseDups, List.mem_filter, Bool.not_eq_true', has_rename_iff h]

/-! ### Calls -/

/-- What a mapper makes of a row: the fields that are missing, or else a call of the constructor. -/
def callFor (m : Mapper) (row : Row) : Except (List String) Row :=
  if (m.missing (m.rename row)).isEmpty then .ok (m.acceptedPart (m.rename row)) else .error (m.missing (m.rename row))

/-- What the mapper answers, by the call that it makes of a row; without a call there is nothing to construct. -/
def answerTo (m : Mapper) (construct : Row → Except Failure Value) : Except (List String) Row → Except Failure Value
  | .error fields => .error (.missingFields m.model.name fields)
  | .ok given => (construct given).mapError m.refusal

theorem mapThrough_eq (construct : Row → Except Failure Value) :
    m.mapThrough construct row = m.answerTo construct (m.callFor row) := by
  rw [callFor, apply_ite (m.answerTo construct), mapThrough]
  cases (m.missing (m.rename row)).isEmpty <;> rfl

theorem mapOne_of_callFor {given : Row} (hs : ∀ schema, m.model ≠ .schematic schema) (h : m.callFor row = .ok given) :
    m.mapOne row = (m.model.build given).mapError m.refusal := by
  rw [mapOne_eq_mapThrough hs, mapThrough_eq, h]
  rfl

theorem callFor_eq_error_iff (h : m.Separates row) :
    m.callFor row = .error fields ↔ fields ≠ [] ∧ m.Lacks row fields := by
  have hlacks := lacks_missing h
  rw [callFor]
  constructor
  · intro hcall
    split at hcall
    · cases hcall
    · rename_i hempty
      obtain rfl := Except.error.inj hcall
      exact ⟨fun hnil => hempty (List.isEmpty_iff.2 hnil), hlacks⟩
  · rintro ⟨hne, hfields⟩
    obtain rfl := hfields.unique hlacks
    rw [if_neg fun hempty => hne (List.isEmpty_iff.1 hempty)]

theorem callFor_of_has (h : ∀ name ∈ m.model.required, (m.rename row).has name) :
    m.callFor row = .ok (m.acceptedPart (m.rename row)) := by
  rw [callFor, missing_eq_nil h]
  rfl

theorem of_callFor_eq_ok {given : Row} (h : m.callFor row = .ok given) :
    m.missing (m.rename row) = [] ∧ given = m.acceptedPart (m.rename row) := by
  rw [callFor] at h
  split at h
  · rename_i hempty
    exact ⟨List.isEmpty_iff.1 hempty, (Except.ok.inj h).symm⟩
  · cases h

/-- The call gives the names the values that the row has for them, each name once and no other. It lacks only what no
row can have a value for: without anything of that kind the constructor that is declared takes it, and else says what is
lacking. A call that it takes fails only if the record does not pass a check, or a check finds no attribute. -/
structure Calls (m : Mapper) (names : List String) (row given : Row) : Prop where
  once : (given.map (·.1)).Nodup
  values : ∀ name v, (name, v) ∈ given ↔ name ∈ names ∧ m.valueFor row name = some v
  expected : ∀ taken, m.model.takes = some taken → ∀ e ∈ given, e.1 ∈ taken
  lacking : (m.model.needs.filter fun name => !given.has name) = m.model.unlisted
  taken : m.model.checkCall given =
    if m.model.unlisted = [] then .ok () else .error (Model.lacking m.model.name "positional" m.model.unlisted)
  refused : ∀ f, m.model.checkCall given = .error f → m.model.build given = .error f
  checked : ∀ f, m.model.build given = .error f →
    m.model.checkCall given = .error f ∨ f = .absentAttribute ∨ ∃ c ∈ m.model.checks, f = c.failure

theorem mem_acceptedPart_iff (ha : m.model.accepted = some names) (hrow : m.Separates row) {name : String} {v : Value} :
    (name, v) ∈ m.acceptedPart (m.rename row) ↔ name ∈ names ∧ m.valueFor row name = some v := by
  rw [acceptedPart, ha, List.mem_filter, List.contains_iff_mem, and_comm, ← get?_rename hrow,
    Row.get?_eq_some (nodup_rename hrow)]

theorem fits_of_callFor {given : Row} (ha : m.model.accepted = some names) (hsub : m.model.required ⊆ names)
    (hrow : m.Separates row) (hcall : m.callFor row = .ok given) : m.model.Fits names given := by
  obtain ⟨hmissing, rfl⟩ := of_callFor_eq_ok hcall
  have hpart : (m.acceptedPart (m.rename row)).Sublist (m.rename row) := by
    rw [acceptedPart, ha]
    exact List.filter_sublist
  have honce := (hpart.map (·.1)).nodup (nodup_rename hrow)
  refine ⟨honce, fun e he => ((mem_acceptedPart_iff ha hrow).1 he).1, fun name hname => ?_⟩
  have hlacks := lacks_missing hrow
  rw [hmissing] at hlacks
  obtain ⟨v, hv⟩ := Option.ne_none_iff_exists'.1 fun hnone =>
    List.not_mem_nil ((hlacks.members name).2 ⟨hname, hnone⟩)
  exact Row.has_iff.2 ⟨v, (Row.get?_eq_some honce).2 ((mem_acceptedPart_iff ha hrow).2 ⟨hsub hname, hv⟩)⟩

theorem calls_of_callFor {given : Row} (h : m.model.CalledByName names) (hrow : m.Separates row)
    (hcall : m.callFor row = .ok given) : m.Calls names row given := by
  have hfits := fits_of_callFor h.accepted h.required_subset hrow hcall
  obtain ⟨-, rfl⟩ := of_callFor_eq_ok hcall
  refine ⟨hfits.once, fun name v => mem_acceptedPart_iff h.accepted hrow, fun taken htakes e he => ?_,
    h.filter_needs hfits, h.checkCall_eq hfits, fun f hf => Model.build_of_checkCall_eq_error h.unschematic hf,
    fun f hf => Model.of_build_eq_error h.unschematic hf⟩
  obtain ⟨taken', htakes', hsub⟩ := Model.exists_takes h.accepted
  obtain rfl := Option.some.inj (htakes'.symm.trans htakes)
  exact hsub (hfits.accepted e he)

/-! ### Outcomes -/

/-- The rows have the same values for the fields of these names. -/
def SameValues (m : Mapper) (names : List String) (row row' : Row) : Prop :=
  ∀ name ∈ names, m.valueFor row' name = m.valueFor row name

theorem SameValues.lacks_iff {row' : Row} (h : m.SameValues names row row') (hsub : m.model.required ⊆ names) :
    m.Lacks row' fields ↔ m.Lacks row fields := by
  have hmembers : ∀ name, (name ∈ m.model.required ∧ m.valueFor row' name = none) ↔
      (name ∈ m.model.required ∧ m.valueFor row name = none) :=
    fun name => and_congr_right fun hname => by rw [h name (hsub hname)]
  exact ⟨fun hl => ⟨hl.sorted, fun name => (hl.members name).trans (hmembers name)⟩,
    fun hl => ⟨hl.sorted, fun name => (hl.members name).trans (hmembers name).symm⟩⟩

/-- Rows with the same values for the accepted fields make the same call, up to the order of the arguments. -/
theorem mapThrough_congr {construct : Row → Except Failure Value} {row' : Row} (ha : m.model.accepted = some names)
    (hsub : m.model.required ⊆ names) (hconstruct : m.model.Unordered names construct) (hrow : m.Separates row)
    (hrow' : m.Separates row') (h : m.SameValues names row row') :
    m.mapThrough construct row' = m.mapThrough construct row := by
  have herror : ∀ fields, m.callFor row' = .error fields ↔ m.callFor row = .error fields := fun fields => by
    rw [callFor_eq_error_iff hrow', callFor_eq_error_iff hrow, h.lacks_iff hsub]
  rw [mapThrough_eq, mapThrough_eq]
  cases hcall : m.callFor row with
  | error fields => rw [(herror fields).2 hcall]
  | ok given =>
    cases hcall' : m.callFor row' with
    | error fields =>
      rw [(herror fields).1 hcall'] at hcall
      cases hcall
    | ok given' =>
      have hfits := fits_of_callFor ha hsub hrow hcall
      have hfits' := fits_of_callFor ha hsub hrow' hcall'
      obtain ⟨-, rfl⟩ := of_callFor_eq_ok hcall
      obtain ⟨-, rfl⟩ := of_callFor_eq_ok hcall'
      have hperm : (m.acceptedPart (m.rename row')).Perm (m.acceptedPart (m.rename row)) := by
        refine (List.perm_ext_iff_of_nodup (List.Nodup.of_map _ hfits'.once) (List.Nodup.of_map _ hfits.once)).2 ?_
        rintro ⟨name, v⟩
        rw [mem_acceptedPart_iff ha hrow', mem_acceptedPart_iff ha hrow]
        exact and_congr_right fun hname => by rw [h name hname]
      rw [answerTo, answerTo, hconstruct _ _ hfits hperm]

theorem refusal_eq_missingFields {f : Failure} {target : String} (h : m.refusal f = .missingFields target fields) :
    f = .missingFields target fields := by
  rw [refusal] at h
  split at h
  · cases h
  · exact h

/-- What a row comes to, if the class accepts the names. -/
structure Settled (m : Mapper) (names : List String) (row : Row) : Prop where
  /-- There is a call exactly if no field is missing. -/
  uncalled : ∀ fields, m.callFor row = .error fields ↔ fields ≠ [] ∧ m.Lacks row fields
  called : ∀ given, m.callFor row = .ok given → m.Calls names row given
  /-- Whatever the constructor does, it is called so and this decides the outcome. -/
  answered : ∀ construct, m.mapThrough construct row = m.answerTo construct (m.callFor row)
  /-- Fields are reported only if they are missing, and then all of them. -/
  reported : ∀ construct, m.model.Unreporting names construct → ∀ target fields,
    m.mapThrough construct row = .error (.missingFields target fields) ↔
      target = m.model.name ∧ fields ≠ [] ∧ m.Lacks row fields
  /-- Rows with the same values for the names come to the same. -/
  alike : ∀ construct, m.model.Unordered names construct → ∀ row', m.Separates row' → m.SameValues names row row' →
    m.mapThrough construct row' = m.mapThrough construct row
  /-- All this holds of the constructor that is declared. -/
  declared : m.mapOne row = m.mapThrough m.model.build row
  unreporting : m.model.Unreporting names m.model.build
  unordered : m.model.Unordered names m.model.build

theorem mapThrough_eq_missingFields_iff {construct : Row → Except Failure Value} (ha : m.model.accepted = some names)
    (hsub : m.model.required ⊆ names) (hconstruct : m.model.Unreporting names construct) (hrow : m.Separates row)
    {target : String} : m.mapThrough construct row = .error (.missingFields target fields) ↔
      target = m.model.name ∧ fields ≠ [] ∧ m.Lacks row fields := by
  rw [mapThrough_eq, ← callFor_eq_error_iff hrow]
  cases hcall : m.callFor row with
  | error missing => simp [answerTo, eq_comm]
  | ok given =>
    refine iff_of_false (fun hanswer => ?_) (fun herror => by cases herror.2)
    obtain ⟨f, hf, hrefusal⟩ := Outcome.mapError_eq_error.1 hanswer
    obtain rfl := refusal_eq_missingFields hrefusal
    exact hconstruct given (fits_of_callFor ha hsub hrow hcall) target fields hf

/-- What a mapper makes of a row depends on the values for the accepted fields only. It reports the missing fields, or
calls the constructor with what is accepted. -/
theorem settled_by_fields (hm : m.model.CalledByName names)
    (hchecks : ∀ c ∈ m.model.checks, ∀ target fields, c.failure ≠ .missingFields target fields)
    (hrow : m.Separates row) : m.Settled names row where
  uncalled _ := callFor_eq_error_iff hrow
  called _ hcall := calls_of_callFor hm hrow hcall
  answered := mapThrough_eq
  reported _ hconstruct _ _ := mapThrough_eq_missingFields_iff hm.accepted hm.required_subset hconstruct hrow
  alike _ hconstruct _ hrow' hsame := mapThrough_congr hm.accepted hm.required_subset hconstruct hrow hrow' hsame
  declared := mapOne_eq_mapThrough hm.unschematic row
  unreporting := hm.unreporting_build hchecks
  unordered := hm.unordered_build

/-- A user with an age that must not be negative, and a mark that is no argument; one column stands for the key. -/
def agedUser : Mapper where
  model := .fieldwise "User" false [⟨"id", .none, true⟩, ⟨"name", .none, true⟩, ⟨"age", .shared (.integer 0), true⟩,
    ⟨"mark", .fresh .null, false⟩] [⟨"age", .nonneg, .mutableDefault "int" "age"⟩]
  aliases := [("user_id", "id")]

/-- A constructor that a class has of its own: records keep the number of the arguments. -/
def counted (given : Row) : Except Failure Value :=
  .ok (.record none agedUser.model.recordClass [("count", .integer given.length)] [])

/-- A row without a name is refused for it, and rows of a user come to the same in any order and with other columns,
also if the class has a constructor of its own. -/
theorem settled_agedUser :
    agedUser.mapOne [("user_id", .integer 1), ("mark", .text "x")] = .error (.missingFields "User" ["name"]) ∧
    agedUser.mapOne [("mark", .integer 2), ("name", .text "Ann"), ("id", .integer 1)] =
      agedUser.mapOne [("user_id", .integer 1), ("name", .text "Ann"), ("height", .integer 3)] ∧
    agedUser.mapThrough counted [("mark", .integer 2), ("name", .text "Ann"), ("id", .integer 1)] =
      agedUser.mapThrough counted [("user_id", .integer 1), ("name", .text "Ann"), ("height", .integer 3)] ∧
    agedUser.callFor [("user_id", .integer 1), ("name", .text "Ann"), ("height", .integer 3)] =
      .ok [("id", .integer 1), ("name", .text "Ann")] := by
  have hm : agedUser.model.CalledByName ["id", "name", "age"] := by
    refine ⟨?_, by decide, rfl, ?_⟩
    · rintro schema ⟨⟩
    · rintro p ⟨⟩
  have hchecks : ∀ c ∈ agedUser.model.checks, ∀ target fields, c.failure ≠ .missingFields target fields := by
    intro c hc target fields
    obtain rfl := List.mem_singleton.1 hc
    rintro ⟨⟩
  have hsettled : ∀ row, agedUser.Separates row → agedUser.Settled ["id", "name", "age"] row :=
    fun row hrow => settled_by_fields hm hchecks hrow
  have hbare := hsettled [("user_id", .integer 1), ("mark", .text "x")] (by decide)
  have hfull := hsettled [("user_id", .integer 1), ("name", .text "Ann"), ("height", .integer 3)] (by decide)
  have hturned : agedUser.Separates [("mark", .integer 2), ("name", .text "Ann"), ("id", .integer 1)] := by decide
  have hsame : agedUser.SameValues ["id", "name", "age"]
      [("user_id", .integer 1), ("name", .text "Ann"), ("height", .integer 3)]
      [("mark", .integer 2), ("name", .text "Ann"), ("id", .integer 1)] := by
    simp only [SameValues, List.forall_mem_cons]
    exact ⟨rfl, rfl, rfl, fun name hname => by cases hname⟩
  have hcounted : agedUser.model.Unordered ["id", "name", "age"] counted := by
    intro given given' _ hperm
    rw [counted, counted, hperm.length_eq]
  refine ⟨?_, ?_, hfull.alike _ hcounted _ hturned hsame, callFor_of_has (by decide)⟩
  · rw [hbare.declared]
    refine (hbare.reported _ hbare.unreporting "User" ["name"]).2 ⟨rfl, by simp, by simp, fun name => ?_⟩
    rw [List.mem_singleton]
    constructor
    · rintro rfl
      exact ⟨by decide, rfl⟩
    · rintro ⟨hname, hnone⟩
      have hname : name = "id" ∨ name = "name" := by simpa [agedUser, Model.required, Field.isRequired] using hname
      refine hname.resolve_left ?_
      rintro rfl
      cases hnone
  · rw [(hsettled _ hturned).declared, hfull.declared]
    exact hfull.alike _ hfull.unordered _ hturned hsame

/-- Prices with a rate that is used up when they are made. -/
def pricing : Mapper where
  model := .fieldwise "Price" false [⟨"net", .none, .argument⟩, ⟨"rate", .none, .transient⟩] []
  aliases := []

/-- A constructor that prices have of their own: it takes an amount, and nothing else. -/
def ofAmount (given : Row) : Except Failure Value :=
  match given.find? (·.1 ≠ "amount") with
  | some (name, _) => .error (Model.unexpected "Price" name)
  | none => .ok (.record none pricing.model.recordClass (given.map fun e => ("net", e.2)) [])

/-- Users whose key must be an integer proper. -/
def strictUser : Mapper where
  model := .fieldwise "User" false [⟨"id", .none, .argument⟩]
    [⟨"id", .integer, .foreign ⟨"ValueError", .value, [.text "bad"], some "bad", []⟩⟩]
  aliases := []

/-- Tickets with a number from a factory, at the moment when it gives this number. -/
def ticket (number : Int) : Mapper where
  model := .fieldwise "Ticket" false [⟨"number", .fresh (.integer number), .argument⟩] []
  aliases := []

/-- The ticket that is made then. -/
def numberedTicket (number : Int) : Value :=
  .record none (ticket number).model.recordClass [("number", .integer number)] []

/-- A price is refused for a rate that the row has, as the constructor is called without it, though no field is missing;
and a constructor of its own may not expect the fields. Of two values that are equal, one makes a user and the other
does not. And a factory gives two tickets different numbers, with nothing in their rows to tell them apart. -/
theorem not_settled_by_fields :
    (pricing.Lacks [("net", .integer 1), ("rate", .integer 2)] [] ∧
      pricing.callFor [("net", .integer 1), ("rate", .integer 2)] = .ok [("net", .integer 1)] ∧
      pricing.mapOne [("net", .integer 1), ("rate", .integer 2)] =
        .error (.illTyped "Price" "Price.__init__() missing 1 required positional argument: 'rate'") ∧
      pricing.mapThrough ofAmount [("net", .integer 1), ("rate", .integer 2)] =
        .error (.illTyped "Price" "Price.__init__() got an unexpected keyword argument 'net'")) ∧
    ((Value.integer 1).eqv (.truth true) = true ∧
      strictUser.mapOne [("id", .integer 1)] =
        .ok (.record none strictUser.model.recordClass [("id", .integer 1)] []) ∧
      strictUser.mapOne [("id", .truth true)] = .error (.illTyped "User" "bad")) ∧
    (ticket 1).mapOne [] = .ok (numberedTicket 1) ∧ (ticket 2).mapOne [] = .ok (numberedTicket 2) ∧
      (numberedTicket 1).eqv (numberedTicket 2) = false := by
  have hlacks : pricing.Lacks [("net", .integer 1), ("rate", .integer 2)] [] := by
    refine ⟨.nil, fun name => iff_of_false List.not_mem_nil ?_⟩
    rintro ⟨hname, hnone⟩
    obtain rfl : name = "net" := by simpa [pricing, Model.required, Field.isRequired] using hname
    cases hnone
  have hcall : pricing.callFor [("net", .integer 1), ("rate", .integer 2)] = .ok [("net", .integer 1)] :=
    callFor_of_has (by decide)
  have hscalar : (Value.integer 1).scalarEq (.truth true) = true := rfl
  have hequal : (Value.integer 1).eqv (.truth true) = true := by simpa [Value.eqv] using hscalar
  have hunequal : (numberedTicket 1).eqv (numberedTicket 2) = false := by
    simp [numberedTicket, Value.eqv, Value.sameThing]
  have hticket : ∀ number, (ticket number).mapOne [] = .ok (numberedTicket number) := by
    intro number
    rw [mapOne_of_callFor (by rintro schema ⟨⟩) (callFor_of_has (by simp [ticket, Model.required, Field.isRequired]))]
    rfl
  refine ⟨⟨hlacks, hcall, ?_, ?_⟩, ⟨hequal, ?_, ?_⟩, hticket 1, hticket 2, hunequal⟩
  · rw [mapOne_of_callFor (by rintro schema ⟨⟩) hcall]
    rfl
  · rw [mapThrough_eq, hcall]
    rfl
  · rw [mapOne_of_callFor (by rintro schema ⟨⟩) (callFor_of_has (by decide))]
    rfl
  · rw [mapOne_of_callFor (by rintro schema ⟨⟩) (callFor_of_has (by decide))]
    rfl

end Mapper

end RecordSql
