import Mathlib.Algebra.Group.Nat.Defs
import RecordSql.Number.Double

/-!
# Which doubles are equal

Two doubles are numerically equal if they are the same word or both are zeros. A double that equals an integer is
determined by it, up to the sign of zero: in units of the smallest positive double, its magnitude has one significand
and one exponent only.
-/

namespace RecordSql.Double

variable {x y : Double} {n : Int}

/-! ### The fields of the word -/

def negative (x : Double) : Bool := decide (2 ^ 63 ≤ x.bits.toNat)

def field (x : Double) : Nat := x.bits.toNat / 2 ^ 52 % 2 ^ 11

def fraction (x : Double) : Nat := x.bits.toNat % 2 ^ 52

theorem read_eq (x : Double) : x.read =
    if x.field = 2047 then if x.fraction = 0 then .infinite x.negative else .nan
    else if x.field = 0 then .finite x.negative x.fraction (-1074)
    else .finite x.negative (2 ^ 52 + x.fraction) (x.field - 1075) := rfl

theorem fraction_lt (x : Double) : x.fraction < 2 ^ 52 := Nat.mod_lt _ (by decide)

theorem bits_eq (x : Double) :
    x.bits.toNat = (if x.negative then 2 ^ 63 else 0) + x.field * 2 ^ 52 + x.fraction := by
  have h := x.bits.toNat_lt
  rw [negative, field, fraction]
  by_cases hn : 2 ^ 63 ≤ x.bits.toNat
  · rw [decide_eq_true hn, if_pos rfl]
    omega
  · rw [decide_eq_false hn, if_neg (by decide)]
    omega

theorem ext_fields (hn : x.negative = y.negative) (hf : x.field = y.field) (hm : x.fraction = y.fraction) : x = y := by
  have h : x.bits.toNat = y.bits.toNat := by rw [bits_eq x, bits_eq y, hn, hf, hm]
  cases x
  cases y
  exact congrArg Double.mk (UInt64.toNat_inj.1 h)

/-! ### Magnitudes -/

/-- The magnitude in units of the smallest positive double. -/
def scale (x : Double) : Nat := if x.field = 0 then x.fraction else (2 ^ 52 + x.fraction) * 2 ^ (x.field - 1)

theorem scale_lt (x : Double) : x.scale < 2 ^ (52 + x.field) := by
  have h := x.fraction_lt
  rw [scale]
  by_cases h0 : x.field = 0
  · rw [if_pos h0, h0]
    exact h
  · rw [if_neg h0, show 52 + x.field = 53 + (x.field - 1) by omega, Nat.pow_add]
    exact Nat.mul_lt_mul_of_pos_right (by omega) (Nat.two_pow_pos _)

theorem le_scale (h0 : x.field ≠ 0) : 2 ^ (51 + x.field) ≤ x.scale := by
  rw [scale, if_neg h0, show 51 + x.field = 52 + (x.field - 1) by omega, Nat.pow_add]
  exact Nat.mul_le_mul_right _ (Nat.le_add_right _ _)

theorem field_le_of_scale_le (h : x.scale ≤ y.scale) : x.field ≤ y.field := by
  refine Nat.le_of_not_lt fun hlt => ?_
  have h1 : x.scale < 2 ^ (51 + x.field) :=
    Nat.lt_of_le_of_lt h (Nat.lt_of_lt_of_le y.scale_lt (Nat.pow_le_pow_right (by decide) (by omega)))
  exact absurd (le_scale (by omega)) (Nat.not_le.2 h1)

theorem field_eq_and_fraction_eq (h : x.scale = y.scale) : x.field = y.field ∧ x.fraction = y.fraction := by
  have hf : x.field = y.field :=
    Nat.le_antisymm (field_le_of_scale_le (Nat.le_of_eq h)) (field_le_of_scale_le (Nat.le_of_eq h.symm))
  refine ⟨hf, ?_⟩
  rw [scale, scale, hf] at h
  by_cases h0 : y.field = 0
  · rwa [if_pos h0, if_pos h0] at h
  · rw [if_neg h0, if_neg h0] at h
    exact Nat.add_left_cancel (Nat.eq_of_mul_eq_mul_right (Nat.two_pow_pos _) h)

/-! ### Doubles that equal integers -/

/-- The smallest positive double is `2 ^ (-finest)`. -/
def finest : Nat := 1074

/-- The integer that `m * 2 ^ e` is, if it is one. -/
def whole (m : Nat) (e : Int) : Option Nat :=
  if 0 ≤ e then some (m * 2 ^ e.natAbs)
  else if m % 2 ^ e.natAbs = 0 then some (m / 2 ^ e.natAbs) else none

theorem whole_scaled {m k b : Nat} {e : Int} (h : whole m e = some k) (hb : 0 ≤ e + b) :
    k * 2 ^ b = m * 2 ^ (e + b).toNat := by
  rw [whole] at h
  by_cases he : 0 ≤ e
  · rw [if_pos he] at h
    rw [← Option.some.inj h, show (e + b).toNat = e.natAbs + b by omega, Nat.pow_add, Nat.mul_assoc]
  · rw [if_neg he] at h
    by_cases hm : m % 2 ^ e.natAbs = 0
    · rw [if_pos hm] at h
      rw [← Option.some.inj h, show b = e.natAbs + (e + b).toNat by omega, Nat.pow_add, ← Nat.mul_assoc,
        Nat.div_mul_cancel (Nat.dvd_of_mod_eq_zero hm), show e.natAbs + (e + b).toNat = b by omega]
    · rw [if_neg hm] at h
      cases h

theorem whole_zero (e : Int) : whole 0 e = some 0 := by
  rw [whole, Nat.zero_mul, Nat.zero_mod, if_pos rfl, Nat.zero_div, ite_self]

theorem toInt?_eq (x : Double) : x.toInt? = match x.read with
    | .finite neg m e => (whole m e).map fun k : Nat => if neg then -(k : Int) else k
    | _ => none := by
  rw [toInt?]
  cases x.read with
  | finite neg m e =>
    show Option.map _ (whole m e >>= fun k : Nat => pure (k : Int)) = (whole m e).map _
    cases whole m e <;> rfl
  | nan => rfl
  | infinite neg => rfl

/-- A double is no finite number, or it is a significand at an exponent that give its magnitude. -/
theorem read_cases (x : Double) :
    x.read = (if x.fraction = 0 then .infinite x.negative else .nan) ∨
    ∃ m e, x.read = .finite x.negative m e ∧ 0 ≤ e + finest ∧ m * 2 ^ (e + finest).toNat = x.scale := by
  rw [read_eq]
  by_cases hf : x.field = 2047
  · exact .inl (if_pos hf)
  · rw [if_neg hf]
    by_cases h0 : x.field = 0
    · refine .inr ⟨x.fraction, -1074, if_pos h0, by decide, ?_⟩
      rw [scale, if_pos h0, show ((-1074 : Int) + finest).toNat = 0 by decide, Nat.pow_zero, Nat.mul_one]
    · refine .inr ⟨2 ^ 52 + x.fraction, x.field - 1075, if_neg h0, ?_, ?_⟩
      · rw [finest]
        omega
      · rw [scale, if_neg h0, finest, show ((x.field : Int) - 1075 + (1074 : Nat)).toNat = x.field - 1 by omega]

/-- A double that equals an integer is its sign and its scaled magnitude. -/
theorem of_toInt?_eq_some (h : x.toInt? = some n) :
    x.isNan = false ∧ n.natAbs * 2 ^ finest = x.scale ∧ (n ≠ 0 → x.negative = decide (n < 0)) := by
  rw [toInt?_eq] at h
  rcases read_cases x with hr | ⟨m, e, hr, he, hs⟩
  · rw [hr] at h
    by_cases h0 : x.fraction = 0
    · rw [if_pos h0] at h
      cases h
    · rw [if_neg h0] at h
      cases h
  · rw [hr] at h
    obtain ⟨k, hk, rfl⟩ := Option.map_eq_some_iff.1 h
    refine ⟨by rw [isNan, hr]; rfl, ?_, ?_⟩
    · rw [← hs, ← whole_scaled hk he]
      cases x.negative <;> simp
    · cases x.negative with
      | false => simp
      | true => simp; omega

/-- An integer but zero is equal to one double at most. -/
theorem eq_of_toInt? (hx : x.toInt? = some n) (hy : y.toInt? = some n) (hn : n ≠ 0) : x = y := by
  obtain ⟨-, hsx, hnx⟩ := of_toInt?_eq_some hx
  obtain ⟨-, hsy, hny⟩ := of_toInt?_eq_some hy
  obtain ⟨hf, hm⟩ := field_eq_and_fraction_eq (hsx.symm.trans hsy)
  exact ext_fields ((hnx hn).trans (hny hn).symm) hf hm

theorem isZero_iff : x.isZero = true ↔ x = zero false ∨ x = zero true := by
  have h (y : Double) : x.bits = y.bits ↔ x = y := ⟨fun h => by cases x; cases y; exact congrArg mk h, congrArg bits⟩
  have h0 : (zero false).bits = 0 := by decide
  rw [← h (zero false), ← h (zero true), h0]
  simp [isZero]

/-- The doubles that equal zero are the zeros. -/
theorem isZero_of_toInt? (h : x.toInt? = some 0) : x.isZero = true := by
  obtain ⟨-, hs, -⟩ := of_toInt?_eq_some h
  obtain ⟨hf, hm⟩ := field_eq_and_fraction_eq (x := x) (y := zero false) (by
    rw [← hs, Int.natAbs_zero, Nat.zero_mul]
    decide)
  rw [isZero_iff]
  cases hn : x.negative with
  | false => exact .inl (ext_fields (hn.trans (by decide)) hf hm)
  | true => exact .inr (ext_fields (hn.trans (by decide)) (hf.trans (by decide)) (hm.trans (by decide)))

theorem toInt?_of_isZero (h : x.isZero = true) : x.toInt? = some 0 := by
  rcases isZero_iff.1 h with rfl | rfl
  · rw [toInt?_eq, show (zero false).read = .finite false 0 (-1074) by decide]
    simp only [whole_zero, Option.map_some]
    rfl
  · rw [toInt?_eq, show (zero true).read = .finite true 0 (-1074) by decide]
    simp only [whole_zero, Option.map_some]
    rfl

end RecordSql.Double
