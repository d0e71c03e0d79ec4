import RecordSql.Proofs.Number.Double
import RecordSql.Proofs.Outcome
import RecordSql.Value.Key

/-!
# Equality of keys

Keys are equal across types, and a key can be unequal to itself. Each key has a form that says what it is equal to, if
it has one: keys are equal if they have the same form. So their equality is symmetric and transitive, which equality of
values is not.
-/

namespace RecordSql

/-- What a number or a text is to others. -/
inductive Scalar
  | whole (n : Int)
  | real (x : Double)
  | text (s : String)
  deriving DecidableEq, Repr

/-- What is not a number is something to others only if it can be told apart. -/
def Double.scalar? (x : Double) : Option Scalar :=
  match x.toInt? with
  | some n => some (.whole n)
  | none => if x.isNan = true ∧ x.bits = nan.bits then none else some (.real x)

namespace Double

variable {x y : Double}

theorem scalar?_eq_whole {n : Int} : x.scalar? = some (.whole n) ↔ x.toInt? = some n := by
  rw [scalar?]
  cases x.toInt? with
  | some m => simp
  | none => by_cases h : x.isNan = true ∧ x.bits = nan.bits <;> simp [h]

theorem scalar?_eq_real {z : Double} (h : x.scalar? = some (.real z)) : x = z := by
  rw [scalar?] at h
  cases hx : x.toInt? with
  | some m => simp [hx] at h
  | none =>
    rw [hx] at h
    by_cases hn : x.isNan = true ∧ x.bits = nan.bits
    · simp [hn] at h
    · simpa [hn] using h

theorem scalar?_ne_text {s : String} : x.scalar? ≠ some (.text s) := by
  rw [scalar?]
  cases x.toInt? with
  | some m => simp
  | none => by_cases h : x.isNan = true ∧ x.bits = nan.bits <;> simp [h]

theorem toInt?_of_isNan (h : x.isNan = true) : x.toInt? = none := by
  cases hx : x.toInt? with
  | none => rfl
  | some n =>
    rw [(of_toInt?_eq_some hx).1] at h
    cases h

/-- Doubles that are equal, or known to be the same, are the same to others. -/
theorem eq_iff_scalar? :
    (x.numEq y || x.sameNan y) = true ↔ ∃ f, x.scalar? = some f ∧ y.scalar? = some f := by
  have hb : x.bits = y.bits ↔ x = y := ⟨fun h => by cases x; cases y; exact congrArg mk h, congrArg bits⟩
  rw [Bool.or_eq_true, numEq, sameNan, Bool.and_eq_true, Bool.or_eq_true, Bool.and_eq_true, Bool.and_eq_true,
    Bool.and_eq_true, beq_iff_eq, hb, bne_iff_ne]
  constructor
  · rintro (⟨hn, rfl | ⟨hx, hy⟩⟩ | ⟨⟨hn, rfl⟩, hne⟩)
    · rw [Bool.not_eq_true'] at hn
      cases h : x.toInt? with
      | some n => exact ⟨.whole n, scalar?_eq_whole.2 h, scalar?_eq_whole.2 h⟩
      | none => exact ⟨.real x, by simp [scalar?, h, hn], by simp [scalar?, h, hn]⟩
    · exact ⟨.whole 0, scalar?_eq_whole.2 (toInt?_of_isZero hx), scalar?_eq_whole.2 (toInt?_of_isZero hy)⟩
    · have h := toInt?_of_isNan hn
      exact ⟨.real x, by simp [scalar?, h, hne], by simp [scalar?, h, hne]⟩
  · rintro ⟨f, hx, hy⟩
    cases f with
    | whole n =>
      rw [scalar?_eq_whole] at hx hy
      refine .inl ⟨by rw [(of_toInt?_eq_some hx).1]; rfl, ?_⟩
      by_cases hn : n = 0
      · rw [hn] at hx hy
        exact .inr ⟨isZero_of_toInt? hx, isZero_of_toInt? hy⟩
      · exact .inl (eq_of_toInt? hx hy hn)
    | real z =>
      obtain rfl := scalar?_eq_real hx
      obtain rfl := scalar?_eq_real hy
      cases hn : y.isNan with
      | false => exact .inl ⟨rfl, .inl rfl⟩
      | true =>
        refine .inr ⟨⟨rfl, rfl⟩, fun hbits => ?_⟩
        simp [scalar?, toInt?_of_isNan hn, hn, hbits] at hx
    | text s => exact absurd hx scalar?_ne_text

end Double

namespace Value

variable {a b c : Value}

/-- What a value is to numbers and texts. -/
def scalar? : Value → Option Scalar
  | .real x => x.scalar?
  | v => match v.toInt? with
    | some n => some (.whole n)
    | none => v.toText?.map .text

theorem scalar?_of_not_real (h : ∀ x, a ≠ .real x) :
    a.scalar? = (a.toInt?.map .whole).or (a.toText?.map .text) := by
  have hs : a.scalar? = match a.toInt? with
      | some n => some (.whole n)
      | none => a.toText?.map .text := by
    cases a with
    | real x => exact absurd rfl (h x)
    | _ => rfl
  rw [hs]
  cases a.toInt? <;> rfl

theorem scalarEq_real_left {x : Double} (h : ∀ y, b ≠ .real y) :
    (real x).scalarEq b = b.toInt?.any fun n => x.toInt? == some n := by
  have hs : (real x).scalarEq b = match b.toInt? with
      | some n => x.toInt? == some n
      | none => false := by
    cases b with
    | real y => exact absurd rfl (h y)
    | symbol id kind name v =>
      unfold scalarEq
      cases (symbol id kind name v).toInt? <;> rfl
    | _ => rfl
  rw [hs]
  cases b.toInt? <;> rfl

theorem scalarEq_real_right {y : Double} (h : ∀ x, a ≠ .real x) :
    a.scalarEq (real y) = a.toInt?.any fun m => y.toInt? == some m := by
  have hs : a.scalarEq (real y) = match a.toInt? with
      | some m => y.toInt? == some m
      | none => false := by
    cases a with
    | real x => exact absurd rfl (h x)
    | symbol id kind name v =>
      unfold scalarEq
      cases (symbol id kind name v).toInt? with
      | some m => rfl
      | none =>
        simp only [show (real y).toInt? = none from rfl, show (real y).toText? = none from rfl]
        cases (symbol id kind name v).toText? <;> rfl
    | _ => rfl
  rw [hs]
  cases a.toInt? <;> rfl

theorem scalarEq_of_not_real (ha : ∀ x, a ≠ .real x) (hb : ∀ y, b ≠ .real y) :
    a.scalarEq b = match a.toInt?, b.toInt? with
      | some m, some n => m == n
      | none, none => match a.toText?, b.toText? with
        | some s, some t => s == t
        | _, _ => false
      | _, _ => false := by
  unfold scalarEq
  cases a.toInt? with
  | some m =>
    cases b.toInt? with
    | some n => rfl
    | none =>
      cases b with
      | real y => exact absurd rfl (hb y)
      | _ => rfl
  | none =>
    cases b.toInt? with
    | some n =>
      cases a with
      | real x => exact absurd rfl (ha x)
      | _ => rfl
    | none =>
      cases a with
      | real x => exact absurd rfl (ha x)
      | _ => rfl

/-- Numbers and texts are equal if they are the same to others. -/
theorem scalarEq_iff (a b : Value) : a.scalarEq b = true ↔ ∃ f, a.scalar? = some f ∧ b.scalar? = some f := by
  by_cases ha : ∃ x, a = .real x
  · obtain ⟨x, rfl⟩ := ha
    by_cases hb : ∃ y, b = .real y
    · obtain ⟨y, rfl⟩ := hb
      exact Double.eq_iff_scalar?
    · replace hb : ∀ y, b ≠ .real y := fun y hy => hb ⟨y, hy⟩
      rw [scalarEq_real_left hb, scalar?_of_not_real hb]
      cases b.toInt? with
      | some n => simp [scalar?, Double.scalar?_eq_whole]
      | none => cases b.toText? <;> simp [scalar?, Double.scalar?_ne_text]
  · replace ha : ∀ x, a ≠ .real x := fun x hx => ha ⟨x, hx⟩
    by_cases hb : ∃ y, b = .real y
    · obtain ⟨y, rfl⟩ := hb
      rw [scalarEq_real_right ha, scalar?_of_not_real ha]
      cases a.toInt? with
      | some m => simp [scalar?, Double.scalar?_eq_whole]
      | none => cases a.toText? <;> simp [scalar?, Double.scalar?_ne_text]
    · replace hb : ∀ y, b ≠ .real y := fun y hy => hb ⟨y, hy⟩
      rw [scalarEq_of_not_real ha hb, scalar?_of_not_real ha, scalar?_of_not_real hb]
      cases a.toInt? with
      | some m =>
        cases b.toInt? with
        | some n => simpa using eq_comm
        | none => cases b.toText? <;> simp
      | none =>
        cases b.toInt? with
        | some n => cases a.toText? <;> simp
        | none =>
          cases a.toText? with
          | none => simp
          | some s =>
            cases b.toText? with
            | none => simp
            | some t => simpa using eq_comm

end Value

/-! ### The form of a key -/

/-- The kinds of values that are equal only if they are the same thing. -/
inductive ThingKind
  | record
  | stream
  | symbol
  deriving DecidableEq, Repr

/-- What a key is equal to. -/
inductive KeyForm
  | null
  | default
  | scalar (s : Scalar)
  | bytes (data : List UInt8)
  | tuple (items : List KeyForm)
  | param (kind : ParamKind) (form : KeyForm)
  | thing (kind : ThingKind) (id : Nat)

namespace Value

mutual

/-- The form of a key. A key that is equal to nothing has none. -/
def keyForm? : Value → Option KeyForm
  | .null => some .null
  | .default => some .default
  | .bytes _ data => some (.bytes data)
  | .tuple items => (keyForms? items).map .tuple
  | .param kind v => (keyForm? v).map (.param kind)
  | .record id _ _ _ => id.map (.thing .record)
  | .stream id _ => id.map (.thing .stream)
  | .symbol id .plain _ _ => id.map (.thing .symbol)
  | .list _ | .set _ | .dict _ _ => none
  | v => v.scalar?.map .scalar

def keyForms? : List Value → Option (List KeyForm)
  | [] => some []
  | v :: vs => (keyForm? v).bind fun f => (keyForms? vs).map (f :: ·)

end

theorem keyForm?_eq_scalar {v : Value} {s : Scalar} : v.keyForm? = some (.scalar s) ↔ v.scalar? = some s := by
  cases v with
  | symbol id kind name v => cases kind <;> simp [keyForm?, scalar?, toInt?, toText?]
  | _ => simp [keyForm?, scalar?, toInt?, toText?]

/-- A key that is a number or a text is equal to what is the same to others. -/
theorem scalarEq_iff_keyForm? {a : Value} (h : a.keyForm? = a.scalar?.map .scalar) (b : Value) :
    a.scalarEq b = true ↔ ∃ f, a.keyForm? = some f ∧ b.keyForm? = some f := by
  rw [scalarEq_iff, h]
  constructor
  · rintro ⟨s, ha, hb⟩
    exact ⟨.scalar s, by rw [ha]; rfl, keyForm?_eq_scalar.2 hb⟩
  · rintro ⟨f, ha, hb⟩
    obtain ⟨s, hs, rfl⟩ := Option.map_eq_some_iff.1 ha
    exact ⟨s, hs, keyForm?_eq_scalar.1 hb⟩

/-- A key of another kind is equal to no number and no text. -/
theorem eqv_iff_of_scalar?_eq_none {a b : Value} (he : a.eqv b = a.scalarEq b) (ha : a.scalar? = none)
    (hf : ∀ f, a.keyForm? = some f → b.keyForm? ≠ some f) :
    a.eqv b = true ↔ ∃ f, a.keyForm? = some f ∧ b.keyForm? = some f := by
  rw [he, scalarEq_iff, ha]
  simpa using hf

theorem sameThing_iff (i j : Identity) : sameThing i j = true ↔ ∃ n, i = some n ∧ j = some n := by
  cases i with
  | none => simp [sameThing]
  | some n => simpa [sameThing] using eq_comm

mutual

/-- Keys are equal if they have the same form. -/
theorem eqv_iff (a b : Value) (h : a.checkKey = .ok ()) :
    a.eqv b = true ↔ ∃ f, a.keyForm? = some f ∧ b.keyForm? = some f := by
  cases a with
  | list items => cases h
  | set items => cases h
  | dict id entries => cases h
  | truth t =>
    rw [← scalarEq_iff_keyForm? rfl, eqv.eq_def]
  | integer n =>
    rw [← scalarEq_iff_keyForm? rfl, eqv.eq_def]
  | real x =>
    rw [← scalarEq_iff_keyForm? rfl, eqv.eq_def]
  | text s =>
    rw [← scalarEq_iff_keyForm? rfl, eqv.eq_def]
  | null =>
    cases b with
    | null => simp [eqv, keyForm?]
    | symbol id kind name v =>
      cases kind <;> exact eqv_iff_of_scalar?_eq_none (eqv.eq_def _ _) rfl (by simp [keyForm?])
    | _ => exact eqv_iff_of_scalar?_eq_none (eqv.eq_def _ _) rfl (by simp [keyForm?])
  | default =>
    cases b with
    | default => simp [eqv, keyForm?]
    | symbol id kind name v =>
      cases kind <;> exact eqv_iff_of_scalar?_eq_none (eqv.eq_def _ _) rfl (by simp [keyForm?])
    | _ => exact eqv_iff_of_scalar?_eq_none (eqv.eq_def _ _) rfl (by simp [keyForm?])
  | bytes mutable data =>
    cases b with
    | bytes mutable' data' => simpa [eqv, keyForm?] using eq_comm
    | symbol id kind name v =>
      cases kind <;> exact eqv_iff_of_scalar?_eq_none (eqv.eq_def _ _) rfl (by simp [keyForm?])
    | _ => exact eqv_iff_of_scalar?_eq_none (eqv.eq_def _ _) rfl (by simp [keyForm?])
  | tuple items =>
    cases b with
    | tuple items' =>
      rw [eqv, eqvAll_iff items items' h]
      simp [keyForm?]
    | symbol id kind name v =>
      cases kind <;> exact eqv_iff_of_scalar?_eq_none (eqv.eq_def _ _) rfl (by simp [keyForm?])
    | _ => exact eqv_iff_of_scalar?_eq_none (eqv.eq_def _ _) rfl (by simp [keyForm?])
  | param kind v =>
    cases b with
    | param kind' v' =>
      rw [eqv, Bool.and_eq_true, beq_iff_eq, eqv_iff v v' h]
      constructor
      · rintro ⟨rfl, f, hf, hf'⟩
        exact ⟨.param kind f, by simp [keyForm?, hf], by simp [keyForm?, hf']⟩
      · rintro ⟨_, hf, hf'⟩
        obtain ⟨f, hv, rfl⟩ := Option.map_eq_some_iff.1 hf
        obtain ⟨f', hv', he⟩ := Option.map_eq_some_iff.1 hf'
        obtain ⟨rfl, rfl⟩ := KeyForm.param.inj he
        exact ⟨rfl, f', hv, hv'⟩
    | symbol id kind name v =>
      cases kind <;> exact eqv_iff_of_scalar?_eq_none (eqv.eq_def _ _) rfl (by simp [keyForm?])
    | _ => exact eqv_iff_of_scalar?_eq_none (eqv.eq_def _ _) rfl (by simp [keyForm?])
  | record id cls own inherited =>
    cases b with
    | record id' cls' own' inherited' =>
      rw [eqv, sameThing_iff]
      simp [keyForm?]
    | symbol id kind name v =>
      cases kind <;> exact eqv_iff_of_scalar?_eq_none (eqv.eq_def _ _) rfl (by simp [keyForm?])
    | _ => exact eqv_iff_of_scalar?_eq_none (eqv.eq_def _ _) rfl (by simp [keyForm?])
  | stream id items =>
    cases b with
    | stream id' items' =>
      rw [eqv, sameThing_iff]
      simp [keyForm?]
    | symbol id kind name v =>
      cases kind <;> exact eqv_iff_of_scalar?_eq_none (eqv.eq_def _ _) rfl (by simp [keyForm?])
    | _ => exact eqv_iff_of_scalar?_eq_none (eqv.eq_def _ _) rfl (by simp [keyForm?])
  | symbol id kind name v =>
    cases kind with
    | integer =>
      rw [← scalarEq_iff_keyForm? rfl, eqv.eq_def]
    | text =>
      rw [← scalarEq_iff_keyForm? rfl, eqv.eq_def]
    | plain =>
      cases b with
      | symbol id' kind' name' v' =>
        cases kind' with
        | plain =>
          rw [eqv, sameThing_iff]
          simp [keyForm?]
        | _ => exact eqv_iff_of_scalar?_eq_none (eqv.eq_def _ _) rfl (by simp [keyForm?])
      | _ => exact eqv_iff_of_scalar?_eq_none (eqv.eq_def _ _) rfl (by simp [keyForm?])

theorem eqvAll_iff (as bs : List Value) (h : checkKeys as = .ok ()) :
    eqvAll as bs = true ↔ ∃ fs, keyForms? as = some fs ∧ keyForms? bs = some fs := by
  cases as with
  | nil => cases bs <;> simp [eqvAll, keyForms?, Option.bind_eq_some_iff]
  | cons a as =>
    obtain ⟨_, ha, has⟩ := Outcome.bind_eq_ok.1 h
    cases bs with
    | nil => simp [eqvAll, keyForms?, Option.bind_eq_some_iff]
    | cons b bs =>
      rw [eqvAll, Bool.and_eq_true, eqv_iff a b ha, eqvAll_iff as bs has]
      constructor
      · rintro ⟨⟨f, hf, hf'⟩, fs, hfs, hfs'⟩
        exact ⟨f :: fs, by simp [keyForms?, hf, hfs], by simp [keyForms?, hf', hfs']⟩
      · rintro ⟨_, hf, hf'⟩
        simp only [keyForms?, Option.bind_eq_some_iff, Option.map_eq_some_iff] at hf hf'
        obtain ⟨f, hf, fs, hfs, rfl⟩ := hf
        obtain ⟨f', hf', fs', hfs', he⟩ := hf'
        obtain ⟨rfl, rfl⟩ := List.cons.inj he
        exact ⟨⟨f', hf, hf'⟩, fs', hfs, hfs'⟩

end

theorem isNull_iff {v : Value} : v.isNull = true ↔ v = .null := by
  cases v <;> simp [isNull]

/-- Only null is equal to null. -/
theorem eqv_null_iff {v : Value} (h : v.checkKey = .ok ()) : v.eqv .null = true ↔ v = .null := by
  rw [eqv_iff v .null h]
  cases v with
  | symbol id kind name v => cases kind <;> simp [keyForm?]
  | _ => simp [keyForm?]

theorem eqv_symm {a b : Value} (ha : a.checkKey = .ok ()) (hb : b.checkKey = .ok ()) (h : a.eqv b = true) :
    b.eqv a = true := by
  obtain ⟨f, hfa, hfb⟩ := (eqv_iff a b ha).1 h
  exact (eqv_iff b a hb).2 ⟨f, hfb, hfa⟩

theorem eqv_trans {a b c : Value} (ha : a.checkKey = .ok ()) (hb : b.checkKey = .ok ()) (hab : a.eqv b = true)
    (hbc : b.eqv c = true) : a.eqv c = true := by
  obtain ⟨f, hfa, hfb⟩ := (eqv_iff a b ha).1 hab
  obtain ⟨g, hgb, hgc⟩ := (eqv_iff b c hb).1 hbc
  obtain rfl := Option.some.inj (hfb.symm.trans hgb)
  exact (eqv_iff a c ha).2 ⟨f, hfa, hgc⟩

end Value

end RecordSql
