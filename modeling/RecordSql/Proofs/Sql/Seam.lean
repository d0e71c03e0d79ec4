import RecordSql.Proofs.Sql.Position

/-!
# Texts side by side

Where two texts meet, the last section of the first and the first section of the second become one if they are of one
kind: code runs on, and two quotes that come together are a doubled quote. All other sections stay as they are. Numbering
does not see the seam: it goes on in the second text with the number that the first has reached.

* `split_append`, `split_append_error`: the sections of two texts side by side.
* `numberMarks_append`: the numbering of two texts side by side.
-/

namespace RecordSql

namespace Section

/-- Sections side by side. The last of the first list and the first of the second become one if they are of one kind. -/
def fuse : List Section → List Section → List Section
  | [], second => second
  | [s], t :: second => if s.kind = t.kind then ⟨s.kind, s.chars ++ t.chars⟩ :: second else s :: t :: second
  | s :: first, second => s :: fuse first second

variable {q : Quote} {k : SectionKind} {s t : Section} {first second : List Section} {cs cs' body rest : List Char}

theorem join_fuse (first second : List Section) : join (fuse first second) = join first ++ join second := by
  fun_induction fuse first second with
  | case1 second => rfl
  | case2 s t second hk => simp [join]
  | case3 s t second hk => simp [join]
  | case4 s first second _ ih => rw [join_cons, join_cons, ih, List.append_assoc]

/-! ### Sections that become one -/

/-- The quote that ends a section and the quote that begins the next are a doubled quote. -/
theorem readQuoted_fused (h : readQuoted q.char body = some (body, []))
    (h' : readQuoted q.char rest = some (rest, [])) :
    readQuoted q.char (body ++ q.char :: rest) = some (body ++ q.char :: rest, []) := by
  have hread : ∀ cs b : List Char, readQuoted q.char cs = some (b, []) →
      readQuoted q.char (cs ++ q.char :: rest) = some (b ++ q.char :: rest, []) := by
    intro cs b h
    fun_induction readQuoted q.char cs generalizing b with
    | case1 => cases h
    | case2 =>
      cases h
      show readQuoted q.char (q.char :: q.char :: rest) = _
      rw [readQuoted_quote_quote, h']
      rfl
    | case3 r ih =>
      obtain ⟨⟨b', r'⟩, hb, heq⟩ := Option.map_eq_some_iff.1 h
      cases heq
      rw [List.cons_append, List.cons_append, readQuoted_quote_quote, ih b' hb]
      rfl
    | case4 => cases h
    | case5 c r hc ih =>
      obtain ⟨⟨b', r'⟩, hb, heq⟩ := Option.map_eq_some_iff.1 h
      cases heq
      rw [List.cons_append, readQuoted_cons_of_ne hc, ih b' hb]
      rfl
  exact hread body body h

theorem IsWhole.append (h : IsWhole k cs) (h' : IsWhole k cs') : IsWhole k (cs ++ cs') := by
  cases k with
  | code =>
    obtain ⟨hne, hcode⟩ := h
    refine ⟨?_, List.forall_mem_append.2 ⟨hcode, h'.2⟩⟩
    intro hnil
    exact hne (List.append_eq_nil_iff.1 hnil).1
  | quoted q =>
    obtain ⟨body, rfl, hbody⟩ := h
    obtain ⟨rest, rfl, hrest⟩ := h'
    exact ⟨body ++ q.char :: rest, rfl, readQuoted_fused hbody hrest⟩

/-- What is put behind a list does not change the kind of its first section. -/
theorem kind_of_mem_head?_fuse (ht : t ∈ (fuse (s :: first) second).head?) : t.kind = s.kind := by
  cases first with
  | cons u first =>
    cases ht
    rfl
  | nil =>
    cases second with
    | nil =>
      cases ht
      rfl
    | cons u second =>
      rw [fuse] at ht
      split at ht
      · cases ht
        rfl
      · cases ht
        rfl

theorem Canonical.fuse (h : Canonical first) (h' : Canonical second) : Canonical (fuse first second) := by
  fun_induction Section.fuse first second with
  | case1 second => exact h'
  | case2 s t second hk =>
    obtain ⟨hs, -, -⟩ := canonical_cons.1 h
    obtain ⟨ht, hne, hsecond⟩ := canonical_cons.1 h'
    rw [← hk] at ht hne
    exact canonical_cons.2 ⟨hs.append ht, hne, hsecond⟩
  | case3 s t second hk =>
    obtain ⟨hs, -, -⟩ := canonical_cons.1 h
    exact canonical_cons.2 ⟨hs, by simpa using hk, h'⟩
  | case4 s first second hcase ih =>
    obtain ⟨hs, hne, hfirst⟩ := canonical_cons.1 h
    refine canonical_cons.2 ⟨hs, ?_, ih hfirst h'⟩
    cases first with
    | nil =>
      -- nothing is behind the only section, or the case before would have been taken
      cases second with
      | nil => simp [Section.fuse]
      | cons t second => exact (hcase t second rfl rfl).elim
    | cons u first =>
      intro t ht
      rw [kind_of_mem_head?_fuse ht]
      exact hne u rfl

/-! ### The cut of two texts -/

/-- A text is not cut exactly if the walk over it ends in a quoted section. -/
theorem split_eq_error : split cs = .error q ↔ SectionKind.code.after cs = .quoted q := by
  constructor
  · exact split_error
  · intro h
    cases hs : split cs with
    | ok sections =>
      rw [(split_ok hs).1] at h
      cases h
    | error q' =>
      rw [split_error hs] at h
      cases h
      rfl

theorem split_append (h : split cs = .ok first) (h' : split cs' = .ok second) :
    split (cs ++ cs') = .ok (fuse first second) := by
  rw [split_eq_ok] at h h' ⊢
  exact ⟨h.1.fuse h'.1, by rw [join_fuse, h.2, h'.2]⟩

/-- A section of the second text that is never closed is none of the first. -/
theorem split_append_error (h : split cs = .ok first) : split (cs ++ cs') = .error q ↔ split cs' = .error q := by
  rw [split_eq_error, split_eq_error, SectionKind.after_append, (split_ok h).1]

end Section

/-! ### The numbering of two texts -/

variable {a : String} {q : Quote}

theorem numberMarks_eq_unclosed {text : String} (h : Section.split text.toList = .error q) (start : Int) :
    numberMarks text start = .error (unclosed text q) :=
  numberMarks_of_quoted (Section.split_error h) start

/-- **Numbering goes through.** If the quoted sections of the first text are closed, two texts side by side are numbered
exactly if the second is, from whatever number; they fail for the quote that the second fails for. What they are numbered
to is the first text with its numbers and then the second, numbered on from where the first ends, and their marks are
those of both. This is so although the sections at the seam may become one. -/
theorem numberMarks_append (ha : Closed a) (b : String) (start : Int) :
    ∃ first out count, sectionsOf a = .ok first ∧ numberMarks a start = .ok (out, count) ∧
      match numberMarks b (start + count) with
      | .ok (out', count') =>
        numberMarks (a ++ b) start = .ok (out ++ out', count + count') ∧
        (∀ start', ∃ done, numberMarks b start' = .ok done) ∧
        ∃ second, sectionsOf b = .ok second ∧ sectionsOf (a ++ b) = .ok (Section.fuse first second)
      | .error _ => ∃ q, numberMarks (a ++ b) start = .error (unclosed (a ++ b) q) ∧
        ∀ start', numberMarks b start' = .error (unclosed b q) := by
  obtain ⟨first, hfirst⟩ := exists_split ha
  refine ⟨first, numbered start a, marksOf a, sectionsOf_eq_ok.2 hfirst, numberMarks_of_closed ha start, ?_⟩
  cases hsecond : Section.split b.toList with
  | ok second =>
    have hb : Closed b := closed_of_split hsecond
    have hboth : Section.split (a ++ b).toList = .ok (Section.fuse first second) := by
      rw [String.toList_append]
      exact Section.split_append hfirst hsecond
    rw [numberMarks_of_closed hb]
    refine ⟨?_, fun start' => ⟨_, numberMarks_of_closed hb start'⟩, second, sectionsOf_eq_ok.2 hsecond,
      sectionsOf_eq_ok.2 hboth⟩
    rw [numberMarks_of_closed (ha.append hb), numbered_append ha, marksOf_append ha]
  | error q =>
    have hboth : Section.split (a ++ b).toList = .error q := by
      rw [String.toList_append]
      exact (Section.split_append_error hfirst).2 hsecond
    rw [numberMarks_eq_unclosed hsecond]
    exact ⟨q, numberMarks_eq_unclosed hboth start, numberMarks_eq_unclosed hsecond⟩

/-- The name that ends the first text and the name that begins the second become one, with a doubled quote in it. The
mark behind it has the number after that of the first text. -/
theorem numberMarks_append_fused :
    let a := "? = \"x?\""
    let b := "\"y\" AND ?"
    Closed a ∧ numberMarks (a ++ b) 3 = .ok ("$3 = \"x?\"\"y\" AND $4", 2) ∧
      sectionsOf (a ++ b) =
        .ok [⟨.code, "? = ".toList⟩, ⟨.quoted .name, "\"x?\"\"y\"".toList⟩, ⟨.code, " AND ?".toList⟩] := by
  intro a b
  have ha : Closed a := by decide
  have hb : Closed b := by decide
  have hfirst : numberMarks a 3 = .ok ("$3 = \"x?\"", 1) := by
    rw [numberMarks_of_closed ha]
    exact congrArg Except.ok (by decide +kernel)
  have hsecond : numberMarks b 4 = .ok ("\"y\" AND $4", 1) := by
    rw [numberMarks_of_closed hb]
    exact congrArg Except.ok (by decide +kernel)
  have hcut : sectionsOf a = .ok [⟨.code, "? = ".toList⟩, ⟨.quoted .name, "\"x?\"".toList⟩] := by
    rw [sectionsOf_eq_ok]
    decide +kernel
  have hcut' : sectionsOf b = .ok [⟨.quoted .name, "\"y\"".toList⟩, ⟨.code, " AND ?".toList⟩] := by
    rw [sectionsOf_eq_ok]
    decide +kernel
  obtain ⟨first, out, count, hsections, hout, h⟩ := numberMarks_append ha b 3
  obtain ⟨rfl, rfl⟩ := Prod.mk.inj (Except.ok.inj (hout.symm.trans hfirst))
  obtain rfl := Except.ok.inj (hsections.symm.trans hcut)
  rw [show ((3 : Int) + (1 : Nat)) = 4 from rfl, hsecond] at h
  obtain ⟨hnumbered, -, second, hsecond', hboth⟩ := h
  obtain rfl := Except.ok.inj (hsecond'.symm.trans hcut')
  exact ⟨ha, hnumbered, hboth⟩

end RecordSql
