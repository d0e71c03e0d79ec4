import RecordSql.Proofs.Sql.Seam

/-!
# The shape of sections

What the sections of a text are can be said without reading the text: code has no quotes, a quoted section stands
between two quotes and has quotes of its own kind inside only as pairs, and no two neighbours are of one kind. A text is
made up of such sections in one way at most. The cut gives them, and where it fails there are none.

* `hasShape_iff`: the shape of a section, against the reading of it.
* `decomposes_iff`, `split_eq_error_iff`: the outcome of the cut, by the shape of sections alone.
* `sectionsOf_unique`: there is one decomposition, or there is none.
-/

namespace RecordSql

namespace Section

/-- Every quote of the kind is one of a pair. -/
inductive Doubled (quote : Char) : List Char → Prop
  | nil : Doubled quote []
  | pair {cs : List Char} : Doubled quote cs → Doubled quote (quote :: quote :: cs)
  | other {c : Char} {cs : List Char} : c ≠ quote → Doubled quote cs → Doubled quote (c :: cs)

/-- The text of a section of a kind: code is not empty and has no quotes; a quoted section begins and ends with its
quote, and inside has its own quote only doubled. -/
def HasShape : SectionKind → List Char → Prop
  | .code, cs => cs ≠ [] ∧ ∀ q : Quote, q.char ∉ cs
  | .quoted q, cs => ∃ inside, cs = q.char :: (inside ++ [q.char]) ∧ Doubled q.char inside

variable {q : Quote} {k : SectionKind} {cs body : List Char} {sections : List Section}

/-! ### Shape and reading -/

/-- What is read as a quoted section has its own quote only doubled, but for the last character. -/
theorem exists_doubled_of_readQuoted {rest : List Char} (h : readQuoted q.char cs = some (body, rest)) :
    ∃ inside, body = inside ++ [q.char] ∧ Doubled q.char inside := by
  fun_induction readQuoted q.char cs generalizing body rest with
  | case1 => cases h
  | case2 =>
    cases h
    exact ⟨[], rfl, .nil⟩
  | case3 r ih =>
    obtain ⟨⟨b, t⟩, hb, heq⟩ := Option.map_eq_some_iff.1 h
    cases heq
    obtain ⟨inside, rfl, hinside⟩ := ih hb
    exact ⟨q.char :: q.char :: inside, rfl, hinside.pair⟩
  | case4 d r hd =>
    cases h
    exact ⟨[], rfl, .nil⟩
  | case5 c r hc ih =>
    obtain ⟨⟨b, t⟩, hb, heq⟩ := Option.map_eq_some_iff.1 h
    cases heq
    obtain ⟨inside, rfl, hinside⟩ := ih hb
    exact ⟨c :: inside, rfl, hinside.other hc⟩

theorem Doubled.readQuoted {inside : List Char} (h : Doubled q.char inside) :
    Section.readQuoted q.char (inside ++ [q.char]) = some (inside ++ [q.char], []) := by
  induction h with
  | nil => exact readQuoted_quote_nil q.char
  | pair _ ih =>
    rw [List.cons_append, List.cons_append, readQuoted_quote_quote, ih]
    rfl
  | other hc _ ih =>
    rw [List.cons_append, readQuoted_cons_of_ne hc, ih]
    rfl

theorem isCode_iff {c : Char} : isCode c ↔ ∀ q : Quote, q.char ≠ c := by
  rw [isCode, Option.isNone_iff_eq_none]
  constructor
  · rintro h q rfl
    cases q <;> cases h
  · intro h
    cases hq : Quote.ofChar? c with
    | none => rfl
    | some q => exact absurd (SectionKind.eq_char_of_ofChar? hq).symm (h q)

theorem hasShape_iff : HasShape k cs ↔ IsWhole k cs := by
  cases k with
  | code =>
    refine and_congr_right fun _ => ?_
    constructor
    · intro h c hc
      rw [isCode_iff]
      rintro q rfl
      exact h q hc
    · intro h q hq
      exact isCode_iff.1 (h _ hq) q rfl
  | quoted q =>
    constructor
    · rintro ⟨inside, rfl, hinside⟩
      exact ⟨inside ++ [q.char], rfl, hinside.readQuoted⟩
    · rintro ⟨body, rfl, hbody⟩
      obtain ⟨inside, rfl, hinside⟩ := exists_doubled_of_readQuoted hbody
      exact ⟨inside, rfl, hinside⟩

end Section

open Section

/-! ### Decompositions -/

/-- The sections make up the text; each has the shape of its kind, and no two neighbours are of one kind. -/
structure Decomposes (text : List Char) (sections : List Section) : Prop where
  joined : join sections = text
  shaped : ∀ s ∈ sections, HasShape s.kind s.chars
  apart : sections.IsChain fun s t => s.kind ≠ t.kind

variable {text : List Char} {sections : List Section} {q : Quote}

theorem decomposes_iff : Decomposes text sections ↔ split text = .ok sections := by
  rw [split_eq_ok]
  constructor
  · intro h
    exact ⟨⟨fun s hs => hasShape_iff.1 (h.shaped s hs), h.apart⟩, h.joined⟩
  · rintro ⟨h, hjoin⟩
    exact ⟨hjoin, fun s hs => hasShape_iff.2 (h.whole s hs), h.apart⟩

theorem exists_decomposes_iff : (∃ sections, Decomposes text sections) ↔ SectionKind.code.after text = .code := by
  constructor
  · rintro ⟨sections, h⟩
    exact (split_ok (decomposes_iff.1 h)).1
  · intro h
    cases hs : split text with
    | ok sections => exact ⟨sections, decomposes_iff.2 hs⟩
    | error q =>
      rw [split_error hs] at h
      cases h

/-- A quote closes a section of its own kind only. -/
theorem SectionKind.step_char_eq_code {k : SectionKind} : k.step q.char = .code ↔ k = .quoted q := by
  cases k with
  | code => simp [step_quote]
  | quoted q' => cases q <;> cases q' <;> decide

/-- The quote that a text is not cut for is the one that it lacks at its end. -/
theorem split_eq_error_iff : split text = .error q ↔ ∃ sections, Decomposes (text ++ [q.char]) sections := by
  rw [split_eq_error, exists_decomposes_iff, SectionKind.after_append, SectionKind.after_cons, SectionKind.after_nil,
    SectionKind.step_char_eq_code]

/-- **A text has one decomposition or none.** The sections of a text make it up; each has the shape of its kind, and no
two neighbours are of one kind: no other sections do that. There are no sections, and the failure says so, exactly if
there is no such decomposition; the quote that is reported is one that makes the text decompose when it is put behind
it. -/
theorem sectionsOf_unique (sql : String) :
    match sectionsOf sql with
    | .ok sections => ∀ other, Decomposes sql.toList other ↔ other = sections
    | .error failure => (∀ other, ¬ Decomposes sql.toList other) ∧
        ∃ q, failure = unclosed sql q ∧ ∃ sections, Decomposes (sql.toList ++ [q.char]) sections := by
  rw [sectionsOf]
  cases hs : split sql.toList with
  | ok sections =>
    show ∀ other, Decomposes sql.toList other ↔ other = sections
    intro other
    rw [decomposes_iff, hs, Except.ok.injEq, eq_comm]
  | error q =>
    show (∀ other, ¬ Decomposes sql.toList other) ∧ _
    refine ⟨?_, q, rfl, split_eq_error_iff.1 hs⟩
    intro other hother
    cases (decomposes_iff.1 hother).symm.trans hs

example : sectionsOf "a='it''s'\"b\"\"c\"" =
    .ok [⟨.code, ['a', '=']⟩, ⟨.quoted .text, "'it''s'".toList⟩, ⟨.quoted .name, "\"b\"\"c\"".toList⟩] :=
  sectionsOf_eq_ok.2 (by decide +kernel)

end RecordSql
