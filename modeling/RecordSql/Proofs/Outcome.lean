import Mathlib.Data.List.Forall2
import RecordSql.Failure

/-!
# Outcomes

Inversion of work that may fail: what has to have succeeded when a sequence of steps did, and where a failure of a list
of steps comes from.
-/

namespace RecordSql.Outcome

variable {ε α β : Type}

@[simp] theorem ok_bind (a : α) (f : α → Except ε β) : (.ok a : Except ε α) >>= f = f a := rfl

@[simp] theorem error_bind (e : ε) (f : α → Except ε β) :
    (.error e : Except ε α) >>= f = .error e := rfl

@[simp] theorem pure_eq (a : α) : (pure a : Except ε α) = .ok a := rfl

@[simp] theorem throw_eq (e : ε) : (throw e : Except ε α) = .error e := rfl

@[simp] theorem map_ok (f : α → β) (a : α) : (.ok a : Except ε α).map f = .ok (f a) := rfl

@[simp] theorem map_error (f : α → β) (e : ε) : (.error e : Except ε α).map f = .error e := rfl

theorem bind_eq_ok {x : Except ε α} {f : α → Except ε β} {b : β} :
    x >>= f = .ok b ↔ ∃ a, x = .ok a ∧ f a = .ok b := by
  cases x <;> simp

theorem map_eq_ok {x : Except ε α} {f : α → β} {b : β} :
    x.map f = .ok b ↔ ∃ a, x = .ok a ∧ f a = b := by
  cases x <;> simp

theorem map_eq_error {x : Except ε α} {f : α → β} {e : ε} : x.map f = .error e ↔ x = .error e := by
  cases x <;> simp

theorem mapError_eq_ok {ε' : Type} {x : Except ε α} {f : ε → ε'} {a : α} : x.mapError f = .ok a ↔ x = .ok a := by
  cases x <;> simp [Except.mapError]

theorem mapError_eq_error {ε' : Type} {x : Except ε α} {f : ε → ε'} {e' : ε'} :
    x.mapError f = .error e' ↔ ∃ e, x = .error e ∧ f e = e' := by
  cases x <;> simp [Except.mapError]

theorem map_bind {γ : Type} (x : Except ε α) (f : α → Except ε β) (g : β → γ) :
    (x >>= f).map g = x >>= fun a => (f a).map g := by
  cases x <;> rfl

theorem mapM_cons (f : α → Except ε β) (a : α) (l : List α) :
    (a :: l).mapM f = f a >>= fun b => (l.mapM f).map (b :: ·) := by
  rw [List.mapM_cons]
  cases f a with
  | error e => rfl
  | ok b => cases l.mapM f <;> rfl

theorem foldlM_congr {f g : β → α → Except ε β} {l : List α} {b : β}
    (h : ∀ a ∈ l, ∀ b, f b a = g b a) : l.foldlM f b = l.foldlM g b := by
  induction l generalizing b with
  | nil => rfl
  | cons a l ih =>
    obtain ⟨ha, hl⟩ := List.forall_mem_cons.1 h
    rw [List.foldlM_cons, List.foldlM_cons, ha]
    exact bind_congr fun b => ih hl

theorem mapM_congr {f g : α → Except ε β} {l : List α} (h : ∀ a ∈ l, f a = g a) : l.mapM f = l.mapM g := by
  induction l with
  | nil => rfl
  | cons a l ih =>
    rw [mapM_cons, mapM_cons, h a (by simp), ih fun b hb => h b (by simp [hb])]

/-- A list of steps succeeds if each does, and its results are theirs. -/
theorem mapM_eq_ok {f : α → Except ε β} {l : List α} {l' : List β} :
    l.mapM f = .ok l' ↔ List.Forall₂ (fun a b => f a = .ok b) l l' := by
  induction l generalizing l' with
  | nil => simp [List.mapM_nil, eq_comm]
  | cons a l ih =>
    rw [mapM_cons, bind_eq_ok]
    constructor
    · rintro ⟨b, hb, h⟩
      obtain ⟨bs, hbs, rfl⟩ := map_eq_ok.1 h
      exact .cons hb (ih.1 hbs)
    · rintro (_ | ⟨hb, hbs⟩)
      exact ⟨_, hb, by rw [ih.2 hbs]; rfl⟩

/-- A result of a list of steps is that of one of them. -/
theorem of_mem_of_mapM_eq_ok {f : α → Except ε β} {l : List α} {l' : List β} {b : β} (h : l.mapM f = .ok l')
    (hb : b ∈ l') : ∃ a ∈ l, f a = .ok b := by
  replace h := mapM_eq_ok.1 h
  induction h with
  | nil => cases hb
  | cons ha _ ih =>
    rcases List.mem_cons.1 hb with rfl | hb
    · exact ⟨_, by simp, ha⟩
    · obtain ⟨a, ha, hab⟩ := ih hb
      exact ⟨a, by simp [ha], hab⟩

/-- A failure of a list of steps is that of one of them. -/
theorem of_mapM_eq_error {f : α → Except ε β} {l : List α} {e : ε} (h : l.mapM f = .error e) :
    ∃ a ∈ l, f a = .error e := by
  induction l with
  | nil => cases h
  | cons a l ih =>
    rw [mapM_cons] at h
    cases ha : f a with
    | error e' =>
      rw [ha] at h
      cases h
      exact ⟨a, by simp, ha⟩
    | ok b =>
      rw [ha, ok_bind] at h
      cases hl : l.mapM f with
      | error e' =>
        rw [hl] at h
        cases h
        obtain ⟨a', ha', he⟩ := ih hl
        exact ⟨a', by simp [ha'], he⟩
      | ok bs =>
        rw [hl] at h
        cases h

/-- A list of checks is passed if each is. -/
theorem forM_eq_ok {f : α → Except ε Unit} {l : List α} {u : Unit} : l.forM f = .ok u ↔ ∀ a ∈ l, f a = .ok () := by
  induction l with
  | nil => simp [List.forM]
  | cons a l ih =>
    show (f a >>= fun _ => l.forM f) = .ok u ↔ _
    rw [bind_eq_ok, List.forall_mem_cons, ← ih]
    constructor
    · rintro ⟨⟨⟩, ha, hl⟩
      exact ⟨ha, hl⟩
    · rintro ⟨ha, hl⟩
      exact ⟨_, ha, hl⟩

/-- A failure of a list of checks is that of one of them. -/
theorem of_forM_eq_error {f : α → Except ε Unit} {l : List α} {e : ε} (h : l.forM f = .error e) :
    ∃ a ∈ l, f a = .error e := by
  induction l with
  | nil => cases h
  | cons a l ih =>
    replace h : (f a >>= fun _ => l.forM f) = .error e := h
    cases ha : f a with
    | error e' =>
      rw [ha] at h
      cases h
      exact ⟨a, by simp, ha⟩
    | ok _ =>
      rw [ha] at h
      obtain ⟨b, hb, he⟩ := ih h
      exact ⟨b, by simp [hb], he⟩

/-- A list of steps has results if each step has one. -/
theorem exists_mapM_eq_ok {f : α → Except ε β} {l : List α} :
    (∃ l', l.mapM f = .ok l') ↔ ∀ a ∈ l, ∃ b, f a = .ok b := by
  induction l with
  | nil => simp
  | cons a l ih =>
    rw [List.forall_mem_cons, ← ih, mapM_cons]
    constructor
    · rintro ⟨_, h⟩
      obtain ⟨b, hb, h⟩ := bind_eq_ok.1 h
      obtain ⟨bs, hbs, -⟩ := map_eq_ok.1 h
      exact ⟨⟨b, hb⟩, bs, hbs⟩
    · rintro ⟨⟨b, hb⟩, bs, hbs⟩
      exact ⟨b :: bs, by rw [hb, hbs]; rfl⟩

/-- Steps in two parts can be done part by part, if success is all that counts. -/
theorem mapM_bind_eq_ok {γ : Type} {f : α → Except ε β} {g : β → α → Except ε γ} {l : List α} {l'' : List γ} :
    l.mapM (fun a => f a >>= fun b => g b a) = .ok l'' ↔
      ∃ l', l.mapM f = .ok l' ∧ (l'.zip l).mapM (fun p => g p.1 p.2) = .ok l'' := by
  induction l generalizing l'' with
  | nil => simp
  | cons a l ih =>
    simp only [mapM_cons, bind_eq_ok, map_eq_ok]
    constructor
    · rintro ⟨c, ⟨b, hb, hc⟩, cs, hcs, rfl⟩
      obtain ⟨bs, hbs, hg⟩ := ih.1 hcs
      refine ⟨b :: bs, ⟨b, hb, bs, hbs, rfl⟩, ?_⟩
      rw [List.zip_cons_cons, mapM_cons, hc, hg]
      rfl
    · rintro ⟨_, ⟨b, hb, bs, hbs, rfl⟩, h⟩
      rw [List.zip_cons_cons, mapM_cons] at h
      obtain ⟨c, hc, h⟩ := bind_eq_ok.1 h
      obtain ⟨cs, hcs, rfl⟩ := map_eq_ok.1 h
      exact ⟨c, ⟨b, hb, hc⟩, cs, ih.2 ⟨bs, hbs, hcs⟩, rfl⟩

/-! ### Agreement -/

/-- Two outcomes agree if both are failures, whichever these are, or both are results that belong together. -/
inductive Agree (R : α → β → Prop) : Except ε α → Except ε β → Prop
  | ok {a : α} {b : β} (h : R a b) : Agree R (.ok a) (.ok b)
  | error (e e' : ε) : Agree R (.error e) (.error e')

namespace Agree

variable {γ δ : Type} {R : α → β → Prop} {S : γ → δ → Prop} {f : α → Except ε γ} {g : β → Except ε δ}

theorem refl {R : α → α → Prop} (hR : ∀ a, R a a) (x : Except ε α) : Agree R x x := by
  cases x with
  | ok a => exact .ok (hR a)
  | error e => exact .error e e

theorem trans {S : β → γ → Prop} {T : α → γ → Prop} (hT : ∀ a b c, R a b → S b c → T a c) {x : Except ε α}
    {y : Except ε β} {z : Except ε γ} (h : Agree R x y) (h' : Agree S y z) : Agree T x z := by
  cases h with
  | ok hab => cases h' with
    | ok hbc => exact .ok (hT _ _ _ hab hbc)
  | error e e' => cases h' with
    | error _ e'' => exact .error e e''

theorem bind {x : Except ε α} {y : Except ε β} (h : Agree R x y) (hfg : ∀ {a b}, R a b → Agree S (f a) (g b)) :
    Agree S (x >>= f) (y >>= g) := by
  cases h with
  | ok hab => exact hfg hab
  | error e e' => exact .error e e'

theorem map {f : α → γ} {g : β → δ} {x : Except ε α} {y : Except ε β} (h : Agree R x y)
    (hfg : ∀ {a b}, R a b → S (f a) (g b)) : Agree S (x.map f) (y.map g) := by
  cases h with
  | ok hab => exact .ok (hfg hab)
  | error e e' => exact .error e e'

theorem symm {R : α → α → Prop} (hR : ∀ {a b}, R a b → R b a) {x y : Except ε α} (h : Agree R x y) : Agree R y x := by
  cases h with
  | ok hab => exact .ok (hR hab)
  | error e e' => exact .error e' e

/-- Two computations in two steps each can be done one after the other or step by step. -/
theorem interchange {ι : Type} (x : Except ε α) (y : Except ε β) (f : α → Except ε γ) (g : β → Except ε δ)
    (h : γ → δ → ι) :
    Agree (· = ·) (x >>= fun a => y >>= fun b => f a >>= fun c => (g b).map (h c))
      ((x >>= f) >>= fun c => (y >>= g).map (h c)) := by
  cases x with
  | error e => exact .error e e
  | ok a => cases y with
    | ok b => exact .refl (fun _ => rfl) _
    | error e =>
      rw [ok_bind, ok_bind, error_bind, error_bind]
      cases f a with
      | ok c => exact .error e e
      | error e' => exact .error e e'

section Folds

variable {R : β → β → Prop} {f : β → α → Except ε β} (hcongr : ∀ a {b b'}, R b b' → Agree R (f b a) (f b' a))

include hcongr

theorem foldlM (l : List α) {b b' : β} (hb : R b b') : Agree R (l.foldlM f b) (l.foldlM f b') := by
  induction l generalizing b b' with
  | nil => exact .ok hb
  | cons a l ih =>
    rw [List.foldlM_cons, List.foldlM_cons]
    exact (hcongr a hb).bind ih

/-- Steps that can change places can be done in any order. -/
theorem foldlM_perm (hrefl : ∀ b, R b b) (htrans : ∀ a b c, R a b → R b c → R a c) {P : α → α → Prop}
    (hsymm : ∀ {a a'}, P a a' → P a' a)
    (hcomm : ∀ {a a'}, P a a' → ∀ b, Agree R (f b a >>= (f · a')) (f b a' >>= (f · a)))
    {l l' : List α} (h : l.Perm l') (hl : l.Pairwise P) {b b' : β} (hb : R b b') :
    Agree R (l.foldlM f b) (l'.foldlM f b') := by
  induction h generalizing b b' with
  | nil => exact .ok hb
  | cons a _ ih =>
    rw [List.foldlM_cons, List.foldlM_cons]
    exact (hcongr a hb).bind fun hc => ih (List.pairwise_cons.1 hl).2 hc
  | swap a a' l =>
    have hp : P a' a := (List.pairwise_cons.1 hl).1 a List.mem_cons_self
    have hswapped := (hcomm hp b).bind fun hc => foldlM hcongr l hc
    have hsame := foldlM hcongr (a :: a' :: l) hb
    simp only [List.foldlM_cons, bind_assoc] at hswapped hsame ⊢
    exact hswapped.trans htrans hsame
  | trans h₁ _ ih₁ ih₂ => exact (ih₁ hl (hrefl b)).trans htrans (ih₂ ((h₁.pairwise_iff hsymm).1 hl) hb)

end Folds

end Agree

end RecordSql.Outcome
