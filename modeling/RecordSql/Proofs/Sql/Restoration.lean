import RecordSql.Proofs.Sql.Decomposition

/-!
# Texts that come back from numbering

Numbering the marks of a text and writing them as question marks again gives the text back, unless a dollar sign or a
question mark in code has a digit right behind it: that digit is then taken for a part of the mark. Whether this is so
can be said of the sections of a text, or of the walk over it; the walk composes over concatenation.

* `SectionKind.flatMap_placed_eq_iff`: what comes back is the text exactly if the walk meets no such digit.
* `restorable_iff`: the same of the sections.
* `styled_numbered_eq_iff`: numbering is undone exactly for these texts.
-/

namespace RecordSql

open Text (isDecimalDigit)

/-- No dollar sign and no question mark of code has a digit right behind it. -/
def Section.Restorable (s : Section) : Prop :=
  s.kind = .code → s.chars.IsChain fun c d => c = '$' ∨ c = '?' → ¬ isDecimalDigit d

instance (s : Section) : Decidable s.Restorable :=
  inferInstanceAs (Decidable (s.kind = .code → s.chars.IsChain fun c d => c = '$' ∨ c = '?' → ¬ isDecimalDigit d))

/-- All sections are closed, and in code no dollar sign and no question mark has a digit right behind it. -/
def Restorable (text : String) : Prop := ∃ sections, sectionsOf text = .ok sections ∧ ∀ s ∈ sections, s.Restorable

namespace SectionKind

/-- The walk meets no dollar sign and no question mark in code with a digit right behind it. -/
def Steady : SectionKind → List Char → Prop
  | _, [] => True
  | k, c :: rest => (k = .code → c = '$' ∨ c = '?' → ¬ rest.head?.any isDecimalDigit) ∧ (k.step c).Steady rest

instance decidableSteady : ∀ (k : SectionKind) (cs : List Char), Decidable (k.Steady cs)
  | _, [] => inferInstanceAs (Decidable True)
  | k, c :: rest =>
    have := decidableSteady (k.step c) rest
    inferInstanceAs
      (Decidable ((k = .code → c = '$' ∨ c = '?' → ¬ rest.head?.any isDecimalDigit) ∧ (k.step c).Steady rest))

/-- The walk meets no dollar sign and no question mark in code. -/
def Calm : SectionKind → List Char → Prop
  | _, [] => True
  | k, c :: rest => (k = .code → c ≠ '$' ∧ c ≠ '?') ∧ (k.step c).Calm rest

variable {k : SectionKind} {inRun : Bool} {xs ys : List Char}

/-! ### Marks written back -/

theorem length_flatMap_placed_le (cs : List Char) :
    ((k.placed true inRun cs).flatMap (Style.write .question)).length ≤ cs.length := by
  induction cs generalizing k inRun with
  | nil => exact Nat.le_refl 0
  | cons c cs ih =>
    rw [placed]
    split
    · exact Nat.le_succ_of_le ih
    · split <;> exact Nat.succ_le_succ ih

/-- The places written as question marks give the text back exactly if no digit belongs to a place. -/
theorem flatMap_placed_eq_iff (cs : List Char) :
    (k.placed true inRun cs).flatMap (Style.write .question) = cs ↔
      k.Steady cs ∧ ¬ (k = .code ∧ inRun ∧ cs.head?.any isDecimalDigit) := by
  have hplace : Style.write .question .place = ['?'] := rfl
  have hchar : ∀ c, Style.write .question (.char c) = [c] := fun _ => rfl
  induction cs generalizing k inRun with
  | nil => simp [placed, Steady]
  | cons c cs ih =>
    rw [placed, Steady]
    split
    · -- the digit is lost, and nothing makes up for it
      rename_i hd
      refine ⟨fun h => ?_, fun h => absurd hd h.2⟩
      have hle : ((code.placed true true cs).flatMap (Style.write .question)).length ≤ cs.length :=
        length_flatMap_placed_le cs
      rw [h] at hle
      exact absurd hle (Nat.not_succ_le_self _)
    · rename_i hd
      have hstart : ¬ (k = .code ∧ inRun ∧ (c :: cs).head?.any isDecimalDigit) := hd
      rw [and_iff_left hstart]
      split
      · rename_i hp
        obtain ⟨rfl, ⟨-, rfl⟩ | ⟨rfl, hhead⟩⟩ := hp
        · rw [List.flatMap_cons, hplace, List.singleton_append, List.cons_inj_right]
          refine ih.trans ?_
          simp [and_comm, show step .code '?' = .code from rfl]
        · -- a dollar sign with a number comes back as a question mark
          refine ⟨fun h => ?_, fun h => absurd hhead (h.1 rfl (.inl rfl))⟩
          rw [List.flatMap_cons, hplace, List.singleton_append, List.cons_eq_cons] at h
          exact absurd h.1 (by decide)
      · rename_i hp
        have hkeep : k = .code → c = '$' ∨ c = '?' → ¬ cs.head?.any isDecimalDigit := by
          rintro rfl (rfl | rfl) hhead
          · exact hp ⟨rfl, .inr ⟨rfl, hhead⟩⟩
          · exact hp ⟨rfl, .inl ⟨rfl, rfl⟩⟩
        rw [List.flatMap_cons, hchar, List.singleton_append, List.cons_inj_right, and_iff_right hkeep]
        refine ih.trans ?_
        simp

/-! ### Walks one after the other -/

theorem Enclosed.calm {cs : List Char} (h : Enclosed k cs) : k.Calm cs := by
  induction cs generalizing k with
  | nil => trivial
  | cons c cs ih =>
    obtain ⟨hc, hcs⟩ := h
    refine ⟨fun hk => ⟨?_, ?_⟩, ih hcs⟩
    · rintro rfl
      exact absurd (hc hk) (by decide)
    · rintro rfl
      exact absurd (hc hk) (by decide)

/-- Nothing depends on what follows a walk that meets no dollar sign and no question mark in code. -/
theorem steady_append_of_calm (h : k.Calm xs) : k.Steady (xs ++ ys) ↔ (k.after xs).Steady ys := by
  induction xs generalizing k with
  | nil => rfl
  | cons c xs ih =>
    obtain ⟨hc, hxs⟩ := h
    have hfree : k = .code → c = '$' ∨ c = '?' → ¬ (xs ++ ys).head?.any isDecimalDigit := fun hk hor =>
      absurd hor (not_or.2 (hc hk))
    rw [List.cons_append, Steady, and_iff_right hfree]
    exact ih hxs

/-- Neither does it on what precedes a text that begins with no digit. -/
theorem steady_append_of_head (h : ys.head?.any isDecimalDigit = false) :
    k.Steady (xs ++ ys) ↔ k.Steady xs ∧ (k.after xs).Steady ys := by
  induction xs generalizing k with
  | nil => simp [Steady]
  | cons c xs ih =>
    have hhead : (xs ++ ys).head?.any isDecimalDigit = xs.head?.any isDecimalDigit := by
      cases xs with
      | nil => exact h
      | cons d xs => rfl
    rw [List.cons_append, Steady, Steady, ih, hhead, and_assoc]
    rfl

theorem steady_of_isCode (h : ∀ c ∈ xs, Section.isCode c) :
    code.Steady xs ↔ xs.IsChain fun c d => c = '$' ∨ c = '?' → ¬ isDecimalDigit d := by
  induction xs with
  | nil => simp [Steady]
  | cons c xs ih =>
    obtain ⟨hc, hxs⟩ := List.forall_mem_cons.1 h
    rw [Steady, step_of_isCode hc, ih hxs, List.isChain_cons]
    cases xs <;> simp

end SectionKind

/-! ### Sections -/

namespace Section

theorem steady_of_split {cs : List Char} {sections : List Section} (h : split cs = .ok sections) :
    SectionKind.code.Steady cs ↔ ∀ s ∈ sections, s.Restorable := by
  fun_induction split cs generalizing sections with
  | case1 =>
    cases h
    simp [SectionKind.Steady]
  | case2 => cases h
  | case3 c r q hq b t hr _ ih =>
    obtain rfl := SectionKind.eq_char_of_ofChar? hq
    obtain ⟨rest, hrest, rfl⟩ := Outcome.map_eq_ok.1 h
    obtain ⟨hr', henclosed, hafter⟩ := SectionKind.enclosed_section hr
    have hfree : Restorable ⟨.quoted q, q.char :: b⟩ := fun hk => by cases hk
    rw [hr', SectionKind.steady_append_of_calm henclosed.calm, hafter, ih hrest, List.forall_mem_cons,
      and_iff_right hfree]
  | case4 c r hc _ ih =>
    obtain ⟨rest, hrest, rfl⟩ := Outcome.map_eq_ok.1 h
    have hcode := fun d hd => isCode_of_mem_code (d := d) (r := r) hc hd
    have hr : c :: r = c :: r.takeWhile isCode ++ r.dropWhile isCode := by
      rw [List.cons_append, List.takeWhile_append_dropWhile]
    have hown : Restorable ⟨.code, c :: r.takeWhile isCode⟩ ↔ SectionKind.code.Steady (c :: r.takeWhile isCode) :=
      ⟨fun h => (SectionKind.steady_of_isCode hcode).2 (h rfl), fun h _ => (SectionKind.steady_of_isCode hcode).1 h⟩
    rw [hr, SectionKind.steady_append_of_head (head_dropWhile_isCode r), SectionKind.after_of_isCode hcode, ih hrest,
      List.forall_mem_cons, hown]

end Section

/-! ### Texts -/

variable {text a b : String}

theorem restorable_iff : Restorable text ↔ Closed text ∧ SectionKind.code.Steady text.toList := by
  constructor
  · rintro ⟨sections, hs, h⟩
    have hsplit := sectionsOf_eq_ok.1 hs
    exact ⟨closed_of_split hsplit, (Section.steady_of_split hsplit).2 h⟩
  · rintro ⟨hclosed, h⟩
    obtain ⟨sections, hs⟩ := exists_split hclosed
    exact ⟨sections, sectionsOf_eq_ok.2 hs, (Section.steady_of_split hs).1 h⟩

instance (text : String) : Decidable (Restorable text) := decidable_of_iff _ restorable_iff.symm

/-- Writing the numbered marks as question marks gives the text back exactly if it is restorable. -/
theorem styled_numbered_eq_iff (h : Closed text) {start : Int} (hn : 0 ≤ start) :
    styled (numbered start text) .question = .ok text ↔ Restorable text := by
  rw [styled_of_closed (h.numbered hn) (by simp), numberedItemsOf_numbered hn, placesOf, Except.ok.injEq,
    ← String.toList_inj, String.toList_ofList, SectionKind.flatMap_placed_eq_iff, restorable_iff, and_iff_right h]
  simp

/-! ### Texts put together -/

/-- A text that comes back also from behind another: it does not begin with a digit. -/
structure Detached (text : String) : Prop where
  restorable : Restorable text
  head : text.toList.head?.any isDecimalDigit = false

instance (text : String) : Decidable (Detached text) :=
  decidable_of_iff (Restorable text ∧ text.toList.head?.any isDecimalDigit = false)
    ⟨fun h => ⟨h.1, h.2⟩, fun h => ⟨h.restorable, h.head⟩⟩

theorem Restorable.append (ha : Restorable a) (hb : Detached b) : Restorable (a ++ b) := by
  obtain ⟨hclosed, hsteady⟩ := restorable_iff.1 ha
  obtain ⟨hclosed', hsteady'⟩ := restorable_iff.1 hb.restorable
  have hafter : SectionKind.code.after a.toList = .code := hclosed
  refine restorable_iff.2 ⟨hclosed.append hclosed', ?_⟩
  rw [String.toList_append, SectionKind.steady_append_of_head hb.head, hafter]
  exact ⟨hsteady, hsteady'⟩

theorem Detached.append (ha : Detached a) (hb : Detached b) : Detached (a ++ b) := by
  refine ⟨ha.restorable.append hb, ?_⟩
  have hhead := ha.head
  rw [String.toList_append]
  cases h : a.toList with
  | nil => exact hb.head
  | cons c cs =>
    rw [h] at hhead
    exact hhead

end RecordSql
