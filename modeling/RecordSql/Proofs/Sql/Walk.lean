import RecordSql.Proofs.Outcome
import RecordSql.Sql.Mark

/-!
# Statement text as a walk

Cutting a text into sections and numbering its marks amounts to one walk over its characters that only remembers the
kind of section it is in: a quote opens a section in code, the section's own quote closes it, and the other quote means
nothing there. A doubled quote closes and opens again. The walk composes over concatenation, also where two sections
fuse, which the sections themselves do not.

* `split_ok`, `split_error`: the cut succeeds if the walk ends in code, and else names the quote of the section it ends
  in.
* `numberMarks_of_closed`: the numbered text is the one that the walk writes.
-/

namespace RecordSql

namespace SectionKind

/-- The kind of section after a character. -/
def step : SectionKind → Char → SectionKind
  | .code, c => (Quote.ofChar? c).elim .code .quoted
  | .quoted q, c => if c = q.char then .code else .quoted q

/-- The kind of section after a text. -/
def after (k : SectionKind) (cs : List Char) : SectionKind := cs.foldl step k

/-- How many marks the walk meets in code. -/
def markCount : SectionKind → List Char → Nat
  | _, [] => 0
  | k, c :: rest => (if k = .code ∧ c = '?' then 1 else 0) + markCount (k.step c) rest

/-- The text with the marks in code numbered on from `next`. -/
def number : SectionKind → Int → List Char → List Char
  | _, _, [] => []
  | k, next, c :: rest =>
    if k = .code ∧ c = '?' then '$' :: (toString next).toList ++ number (k.step c) (next + 1) rest
    else c :: number (k.step c) next rest

variable (k : SectionKind) (next : Int) (xs ys : List Char)

@[simp] theorem after_nil : k.after [] = k := rfl

@[simp] theorem after_cons (c : Char) : k.after (c :: xs) = (k.step c).after xs := rfl

@[simp] theorem after_append : k.after (xs ++ ys) = (k.after xs).after ys := List.foldl_append

theorem markCount_append : k.markCount (xs ++ ys) = k.markCount xs + (k.after xs).markCount ys := by
  induction xs generalizing k with
  | nil => simp [markCount]
  | cons c xs ih =>
    rw [List.cons_append, markCount, markCount, ih, after_cons]
    omega

theorem number_append :
    k.number next (xs ++ ys) = k.number next xs ++ (k.after xs).number (next + k.markCount xs) ys := by
  induction xs generalizing k next with
  | nil => simp [number, markCount]
  | cons c xs ih =>
    rw [List.cons_append, number, number, markCount, after_cons]
    split
    · have hnext : next + ((1 + (k.step c).markCount xs : Nat) : Int) = next + 1 + (k.step c).markCount xs := by
        push_cast
        omega
      rw [ih, hnext, List.append_assoc]
    · rw [ih, Nat.zero_add, List.cons_append]

/-- A text without marks in code stays as it is. -/
theorem number_of_markCount_eq_zero {k : SectionKind} {cs : List Char} (h : k.markCount cs = 0) :
    k.number next cs = cs := by
  induction cs generalizing k with
  | nil => rfl
  | cons c cs ih =>
    rw [markCount] at h
    rw [number]
    split
    · rw [if_pos ‹_›] at h
      omega
    · rw [ih (by omega)]

/-! ### Characters -/

theorem step_quote (q : Quote) : step .code q.char = .quoted q := by
  cases q <;> rfl

theorem step_of_isCode {c : Char} (h : Section.isCode c) : step .code c = .code := by
  unfold Section.isCode at h
  simp [step, Option.isNone_iff_eq_none.1 h]

theorem eq_char_of_ofChar? {c : Char} {q : Quote} (h : Quote.ofChar? c = some q) : c = q.char := by
  unfold Quote.ofChar? at h
  split at h
  · cases h
    assumption
  · split at h
    · cases h
      assumption
    · cases h

theorem char_ne_mark (q : Quote) : q.char ≠ '?' := by
  cases q <;> decide

/-! ### Code without quotes -/

variable {xs}

theorem after_of_isCode (h : ∀ c ∈ xs, Section.isCode c) : after .code xs = .code := by
  induction xs with
  | nil => rfl
  | cons c xs ih =>
    rw [after_cons, step_of_isCode (h c (by simp))]
    exact ih fun d hd => h d (by simp [hd])

/-- In code, numbering section by section is the walk. -/
theorem numberCode_eq (h : ∀ c ∈ xs, Section.isCode c) :
    Mark.numberCode next xs = (number .code next xs, next + markCount .code xs) := by
  induction xs generalizing next with
  | nil => simp [Mark.numberCode, number, markCount]
  | cons c xs ih =>
    have hc := step_of_isCode (h c (by simp))
    have hxs : ∀ d ∈ xs, Section.isCode d := fun d hd => h d (by simp [hd])
    rw [Mark.numberCode, number, markCount, hc]
    by_cases hm : c = '?'
    · simp only [hm, if_true, ih (next + 1) hxs, and_self, Prod.mk.injEq, true_and]
      push_cast
      omega
    · simp [hm, ih next hxs]

end SectionKind

namespace Section

open SectionKind

/-! ### Quoted sections -/

variable {q : Quote} {cs body rest : List Char}

/-- What is read of a quoted section leads back into code and holds no mark. -/
theorem readQuoted_some (h : readQuoted q.char cs = some (body, rest)) :
    cs = body ++ rest ∧ after (.quoted q) body = .code ∧ markCount (.quoted q) body = 0 := by
  fun_induction readQuoted q.char cs generalizing body rest with
  | case1 => cases h
  | case2 =>
    cases h
    simp [SectionKind.step, markCount]
  | case3 r ih =>
    obtain ⟨⟨b, t⟩, hb, heq⟩ := Option.map_eq_some_iff.1 h
    cases heq
    obtain ⟨h1, h2, h3⟩ := ih hb
    -- a doubled quote closes the section and opens it again
    refine ⟨by simp [h1], ?_, ?_⟩
    · rw [after_cons, after_cons, SectionKind.step, if_pos rfl, step_quote, h2]
    · rw [markCount, markCount, SectionKind.step, if_pos rfl, step_quote, h3]
      simp [char_ne_mark q]
  | case4 d r hd =>
    cases h
    simp [SectionKind.step, markCount]
  | case5 c r hc ih =>
    obtain ⟨⟨b, t⟩, hb, heq⟩ := Option.map_eq_some_iff.1 h
    cases heq
    obtain ⟨h1, h2, h3⟩ := ih hb
    refine ⟨by simp [h1], ?_, ?_⟩
    · rw [after_cons, SectionKind.step, if_neg hc, h2]
    · rw [markCount, SectionKind.step, if_neg hc, h3]
      simp

theorem readQuoted_none (h : readQuoted q.char cs = none) : after (.quoted q) cs = .quoted q := by
  fun_induction readQuoted q.char cs with
  | case1 => rfl
  | case2 => cases h
  | case3 r ih =>
    rw [after_cons, after_cons, SectionKind.step, if_pos rfl, step_quote]
    exact ih (Option.map_eq_none_iff.1 h)
  | case4 => cases h
  | case5 c r hc ih =>
    rw [after_cons, SectionKind.step, if_neg hc]
    exact ih (Option.map_eq_none_iff.1 h)

/-- A quoted section is walked over as it is. -/
theorem walk_quoted (h : markCount (.quoted q) body = 0) (next : Int) :
    number .code next (q.char :: body) = q.char :: body ∧ markCount .code (q.char :: body) = 0 := by
  have hm : markCount .code (q.char :: body) = 0 := by
    rw [markCount, step_quote, h]
    simp [char_ne_mark q]
  exact ⟨number_of_markCount_eq_zero next hm, hm⟩

/-! ### The cut into sections -/

theorem numberSections_quoted (next : Int) (sections : List Section) :
    Mark.numberSections next (⟨.quoted q, cs⟩ :: sections) =
      (cs ++ (Mark.numberSections next sections).1, (Mark.numberSections next sections).2) := rfl

theorem numberSections_code (next : Int) (sections : List Section) :
    Mark.numberSections next (⟨.code, cs⟩ :: sections) =
      ((Mark.numberCode next cs).1 ++ (Mark.numberSections (Mark.numberCode next cs).2 sections).1,
        (Mark.numberSections (Mark.numberCode next cs).2 sections).2) := rfl

theorem isCode_of_mem_code {c d : Char} {r : List Char} (hc : Quote.ofChar? c = none)
    (hd : d ∈ c :: r.takeWhile isCode) : isCode d := by
  rcases List.mem_cons.1 hd with rfl | hd
  · simp [isCode, hc]
  · exact List.all_eq_true.1 List.all_takeWhile d hd

/-- A text whose walk ends in a quoted section is not cut, and the quote is named. -/
theorem split_error (h : split cs = .error q) : after .code cs = .quoted q := by
  fun_induction split cs with
  | case1 => cases h
  | case2 c r q' hq hr =>
    cases h
    obtain rfl := eq_char_of_ofChar? hq
    rw [after_cons, step_quote, readQuoted_none hr]
  | case3 c r q' hq b t hr _ ih =>
    obtain rfl := eq_char_of_ofChar? hq
    obtain ⟨h1, h2, -⟩ := readQuoted_some hr
    rw [after_cons, step_quote, h1, after_append, h2]
    exact ih (Outcome.map_eq_error.1 h)
  | case4 c r hc _ ih =>
    have hcode := after_of_isCode fun d hd => isCode_of_mem_code (r := r) hc hd
    have hr : c :: r = c :: r.takeWhile isCode ++ r.dropWhile isCode := by
      rw [List.cons_append, List.takeWhile_append_dropWhile]
    rw [hr, after_append, hcode]
    exact ih (Outcome.map_eq_error.1 h)

/-- The sections of a text that is cut: the walk ends in code, and numbers what the sections number. -/
theorem split_ok {sections : List Section} (h : split cs = .ok sections) :
    after .code cs = .code ∧ ∀ next, Mark.numberSections next sections =
      (number .code next cs, next + markCount .code cs) := by
  fun_induction split cs generalizing sections with
  | case1 =>
    cases h
    simp [Mark.numberSections, number, markCount]
  | case2 => cases h
  | case3 c r q' hq b t hr _ ih =>
    obtain rfl := eq_char_of_ofChar? hq
    obtain ⟨h1, h2, h3⟩ := readQuoted_some hr
    obtain ⟨rest, hrest, rfl⟩ := Outcome.map_eq_ok.1 h
    obtain ⟨ih1, ih2⟩ := ih hrest
    refine ⟨by rw [after_cons, step_quote, h1, after_append, h2, ih1], fun next => ?_⟩
    have hw := walk_quoted (q := q') h3
    rw [numberSections_quoted, ih2, h1, ← List.cons_append, number_append, markCount_append, (hw next).1, (hw next).2,
      after_cons, step_quote, h2]
    simp
  | case4 c r hc _ ih =>
    have hcode := fun d hd => isCode_of_mem_code (d := d) (r := r) hc hd
    obtain ⟨rest, hrest, rfl⟩ := Outcome.map_eq_ok.1 h
    obtain ⟨ih1, ih2⟩ := ih hrest
    have hr : c :: r = c :: r.takeWhile isCode ++ r.dropWhile isCode := by
      rw [List.cons_append, List.takeWhile_append_dropWhile]
    rw [hr, after_append, after_of_isCode hcode]
    refine ⟨ih1, fun next => ?_⟩
    rw [numberSections_code, numberCode_eq next hcode, ih2, number_append, markCount_append, after_of_isCode hcode]
    simp [Int.add_assoc]

end Section

/-! ### Texts -/

/-- A text whose quoted sections are all closed. -/
def Closed (text : String) : Prop := SectionKind.code.after text.toList = .code

/-- The failure of a text with a section that its quote never closes. -/
def unclosed (text : String) (q : Quote) : Failure :=
  .binding text ("unterminated " ++ q.char.toString ++ " quoted section")

/-- How many marks stand outside the quoted sections of a text. -/
def marksOf (text : String) : Nat := SectionKind.code.markCount text.toList

/-- The text with the marks outside its quoted sections numbered on from `start`. -/
def numbered (start : Int) (text : String) : String :=
  String.ofList (SectionKind.code.number start text.toList)

instance (text : String) : Decidable (Closed text) :=
  inferInstanceAs (Decidable (SectionKind.code.after text.toList = .code))

/-- A text is cut into sections if they are all closed. -/
theorem closed_of_split {text : String} {sections : List Section} (h : Section.split text.toList = .ok sections) :
    Closed text := (Section.split_ok h).1

theorem exists_split {text : String} (h : Closed text) : ∃ sections, Section.split text.toList = .ok sections := by
  cases hs : Section.split text.toList with
  | error q =>
    rw [Closed, Section.split_error hs] at h
    cases h
  | ok sections => exact ⟨sections, rfl⟩

theorem numberMarks_of_closed {text : String} (h : Closed text) (start : Int) :
    numberMarks text start = .ok (numbered start text, marksOf text) := by
  unfold numberMarks sectionsOf
  obtain ⟨sections, hs⟩ := exists_split h
  have hn := (Section.split_ok hs).2 start
  rw [hs, Except.mapError, Outcome.map_ok, hn]
  simp only [numbered, marksOf, Except.ok.injEq, Prod.mk.injEq, true_and]
  omega

theorem numberMarks_eq_ok {text out : String} {start : Int} {count : Nat} :
    numberMarks text start = .ok (out, count) ↔ Closed text ∧ out = numbered start text ∧ count = marksOf text := by
  constructor
  · intro h
    have hc : Closed text := by
      obtain ⟨sections, hs, -⟩ := Outcome.map_eq_ok.1 h
      cases hsplit : Section.split text.toList with
      | error q =>
        rw [sectionsOf, hsplit] at hs
        cases hs
      | ok sections => exact closed_of_split hsplit
    rw [numberMarks_of_closed hc] at h
    cases h
    exact ⟨hc, rfl, rfl⟩
  · rintro ⟨hc, rfl, rfl⟩
    exact numberMarks_of_closed hc start

section Append

variable {a b : String} (ha : Closed a)

include ha

theorem Closed.append (hb : Closed b) : Closed (a ++ b) := by
  rw [Closed, String.toList_append, SectionKind.after_append, ha]
  exact hb

theorem marksOf_append : marksOf (a ++ b) = marksOf a + marksOf b := by
  rw [marksOf, String.toList_append, SectionKind.markCount_append, ha]
  rfl

theorem numbered_append (start : Int) :
    numbered start (a ++ b) = numbered start a ++ numbered (start + marksOf a) b := by
  rw [numbered, String.toList_append, SectionKind.number_append, ha, String.ofList_append]
  rfl

end Append

theorem numbered_of_marksOf_eq_zero {text : String} (h : marksOf text = 0) (start : Int) :
    numbered start text = text := by
  rw [numbered, SectionKind.number_of_markCount_eq_zero start h, String.ofList_toList]

end RecordSql
