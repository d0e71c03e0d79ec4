import Mathlib.Data.List.Chain
import RecordSql.Proofs.Sql.Place
import RecordSql.Sql.Name

/-!
# The sections of a text

A list of sections is canonical if each of them is one piece that the cut would take, and no two neighbours are of one
kind. The cut of a text is the canonical list that makes it up. What changes the code of a canonical list, and leaves
its quoted sections alone, gives a canonical list again. Numbering marks does this.

* `split_eq_ok`: the cut gives the canonical list of the text.
* `sectionsOf_numbered`: the sections of a text whose marks were numbered.
-/

namespace RecordSql

namespace SectionKind

variable {c : Char} {q : Quote}

theorem step_eq_code : step .code c = .code ↔ Section.isCode c := by
  constructor
  · intro h
    rw [step] at h
    rw [Section.isCode]
    cases hq : Quote.ofChar? c with
    | none => rfl
    | some q =>
      rw [hq] at h
      cases h
  · exact step_of_isCode

theorem step_eq_quoted : step .code c = .quoted q ↔ c = q.char := by
  constructor
  · intro h
    rw [step] at h
    cases hq : Quote.ofChar? c with
    | none =>
      rw [hq] at h
      cases h
    | some q' =>
      rw [hq] at h
      cases h
      exact eq_char_of_ofChar? hq
  · rintro rfl
    exact step_quote q

end SectionKind

namespace Section

variable {q : Quote} {s t : Section} {sections : List Section} {cs body rest : List Char}

/-! ### Canonical lists -/

/-- The text of a section of a kind: code is not empty and has no quotes, and a quoted section is read to its end. -/
def IsWhole : SectionKind → List Char → Prop
  | .code, cs => cs ≠ [] ∧ ∀ c ∈ cs, isCode c
  | .quoted q, cs => ∃ body, cs = q.char :: body ∧ readQuoted q.char body = some (body, [])

/-- Whole sections, no two neighbours of one kind. -/
structure Canonical (sections : List Section) : Prop where
  whole : ∀ s ∈ sections, IsWhole s.kind s.chars
  apart : sections.IsChain fun s t => s.kind ≠ t.kind

theorem canonical_nil : Canonical [] := ⟨by simp, by simp⟩

theorem canonical_cons : Canonical (s :: sections) ↔
    IsWhole s.kind s.chars ∧ (∀ t ∈ sections.head?, s.kind ≠ t.kind) ∧ Canonical sections := by
  constructor
  · rintro ⟨hw, ha⟩
    obtain ⟨h1, h2⟩ := List.isChain_cons.1 ha
    exact ⟨hw s (by simp), h1, fun t ht => hw t (by simp [ht]), h2⟩
  · rintro ⟨hs, hne, hw, ha⟩
    exact ⟨List.forall_mem_cons.2 ⟨hs, hw⟩, List.isChain_cons.2 ⟨hne, ha⟩⟩

theorem join_cons (s : Section) (sections : List Section) : join (s :: sections) = s.chars ++ join sections :=
  List.flatMap_cons

/-- The first character of a section gives its kind away. -/
theorem IsWhole.exists_cons {k : SectionKind} (h : IsWhole k cs) :
    ∃ c cs', cs = c :: cs' ∧ SectionKind.code.step c = k := by
  cases k with
  | code =>
    obtain ⟨hne, hcode⟩ := h
    obtain ⟨c, cs', rfl⟩ := List.exists_cons_of_ne_nil hne
    exact ⟨c, cs', rfl, SectionKind.step_of_isCode (hcode c (by simp))⟩
  | quoted q =>
    obtain ⟨body, rfl, -⟩ := h
    exact ⟨q.char, body, rfl, SectionKind.step_quote q⟩

/-- A section of a kind goes before a canonical list if the text of the list begins with a character of another kind. -/
theorem Canonical.head_iff {k : SectionKind} (h : Canonical sections) :
    (∀ t ∈ sections.head?, k ≠ t.kind) ↔ ∀ c ∈ (join sections).head?, SectionKind.code.step c ≠ k := by
  cases sections with
  | nil => simp [join]
  | cons t sections =>
    obtain ⟨hw, -⟩ := canonical_cons.1 h
    obtain ⟨d, cs', hcs, hd⟩ := hw.exists_cons
    simp [join_cons, hcs, hd, eq_comm]

/-! ### Reading a quoted section -/

theorem readQuoted_quote_nil (c : Char) : readQuoted c [c] = some ([c], []) := by
  simp [readQuoted]

theorem readQuoted_quote_quote (c : Char) (cs : List Char) :
    readQuoted c (c :: c :: cs) = (readQuoted c cs).map fun (body, r) => (c :: c :: body, r) := by
  simp [readQuoted]

theorem readQuoted_quote_cons {c d : Char} (h : d ≠ c) (cs : List Char) :
    readQuoted c (c :: d :: cs) = some ([c], d :: cs) := by
  simp [readQuoted, h]

theorem readQuoted_cons_of_ne {c d : Char} (h : d ≠ c) (cs : List Char) :
    readQuoted c (d :: cs) = (readQuoted c cs).map fun (body, r) => (d :: body, r) := by
  cases cs <;> simp [readQuoted, h]

/-- What is read stays so when something follows that does not begin with the quote. -/
theorem readQuoted_append (h : readQuoted q.char cs = some (body, [])) (hr : ∀ c ∈ rest.head?, c ≠ q.char) :
    readQuoted q.char (cs ++ rest) = some (body, rest) := by
  fun_induction readQuoted q.char cs generalizing body with
  | case1 => cases h
  | case2 =>
    cases h
    cases rest with
    | nil => exact readQuoted_quote_nil q.char
    | cons d rest => exact readQuoted_quote_cons (hr d rfl) rest
  | case3 r ih =>
    obtain ⟨⟨b, t⟩, hb, heq⟩ := Option.map_eq_some_iff.1 h
    cases heq
    rw [List.cons_append, List.cons_append, readQuoted_quote_quote, ih hb]
    rfl
  | case4 => cases h
  | case5 c r hc ih =>
    obtain ⟨⟨b, t⟩, hb, heq⟩ := Option.map_eq_some_iff.1 h
    cases heq
    rw [List.cons_append, readQuoted_cons_of_ne hc, ih hb]
    rfl

/-- A section is read to its end, and what follows does not begin with its quote. -/
theorem readQuoted_whole (h : readQuoted q.char cs = some (body, rest)) :
    readQuoted q.char body = some (body, []) ∧ ∀ c ∈ rest.head?, c ≠ q.char := by
  fun_induction readQuoted q.char cs generalizing body rest with
  | case1 => cases h
  | case2 =>
    cases h
    exact ⟨readQuoted_quote_nil q.char, by simp⟩
  | case3 r ih =>
    obtain ⟨⟨b, t⟩, hb, heq⟩ := Option.map_eq_some_iff.1 h
    cases heq
    obtain ⟨h1, h2⟩ := ih hb
    exact ⟨by rw [readQuoted_quote_quote, h1]; rfl, h2⟩
  | case4 d r hd =>
    cases h
    exact ⟨readQuoted_quote_nil q.char, by simpa using hd⟩
  | case5 c r hc ih =>
    obtain ⟨⟨b, t⟩, hb, heq⟩ := Option.map_eq_some_iff.1 h
    cases heq
    obtain ⟨h1, h2⟩ := ih hb
    exact ⟨by rw [readQuoted_cons_of_ne hc, h1]; rfl, h2⟩

/-! ### The cut -/

theorem split_code_append (hne : cs ≠ []) (hcode : ∀ c ∈ cs, isCode c) (hr : ∀ c ∈ rest.head?, ¬ isCode c) :
    split (cs ++ rest) = (split rest).map (⟨.code, cs⟩ :: ·) := by
  obtain ⟨c, cs, rfl⟩ := List.exists_cons_of_ne_nil hne
  have hc : Quote.ofChar? c = none := Option.isNone_iff_eq_none.1 (hcode c (by simp))
  have hcs : ∀ d ∈ cs, isCode d := fun d hd => hcode d (by simp [hd])
  have hstop : rest.takeWhile isCode = [] ∧ rest.dropWhile isCode = rest := by
    cases rest with
    | nil => exact ⟨rfl, rfl⟩
    | cons d rest => exact ⟨List.takeWhile_cons_of_neg (hr d rfl), List.dropWhile_cons_of_neg (hr d rfl)⟩
  have htake : (cs ++ rest).takeWhile isCode = cs := by
    rw [List.takeWhile_append_of_pos hcs, hstop.1, List.append_nil]
  have hdrop : (cs ++ rest).dropWhile isCode = rest := by
    rw [List.dropWhile_append_of_pos hcs, hstop.2]
  rw [List.cons_append, split]
  split
  · rename_i q hq
    rw [hc] at hq
    cases hq
  · simp only [htake, hdrop]

theorem split_quoted_append (hbody : readQuoted q.char body = some (body, [])) (hr : ∀ c ∈ rest.head?, c ≠ q.char) :
    split (q.char :: body ++ rest) = (split rest).map (⟨.quoted q, q.char :: body⟩ :: ·) := by
  have hq : Quote.ofChar? q.char = some q := by cases q <;> rfl
  have hread := readQuoted_append hbody hr
  rw [List.cons_append, split]
  split
  · rename_i q' hq'
    rw [hq] at hq'
    cases hq'
    split
    · rename_i hnone
      rw [hread] at hnone
      cases hnone
    · rename_i b t hsome
      rw [hread] at hsome
      cases hsome
      rfl
  · rename_i hnone
    rw [hq] at hnone
    cases hnone

/-- A canonical list is the cut of its text. -/
theorem Canonical.split_join (h : Canonical sections) : split (join sections) = .ok sections := by
  induction sections with
  | nil =>
    rw [join, List.flatMap_nil, split]
  | cons s sections ih =>
    obtain ⟨hw, hne, htail⟩ := canonical_cons.1 h
    have hhead := htail.head_iff.1 hne
    obtain ⟨kind, chars⟩ := s
    rw [join_cons]
    cases kind with
    | code =>
      obtain ⟨hnil, hcode⟩ := hw
      have hstop : ∀ c ∈ (join sections).head?, ¬ isCode c := fun c hc hcode =>
        hhead c hc (SectionKind.step_eq_code.2 hcode)
      rw [split_code_append hnil hcode hstop, ih htail]
      rfl
    | quoted q =>
      obtain ⟨body, rfl, hbody⟩ := hw
      have hstop : ∀ c ∈ (join sections).head?, c ≠ q.char := by
        rintro c hc rfl
        exact hhead _ hc (SectionKind.step_quote q)
      rw [split_quoted_append hbody hstop, ih htail]
      rfl

theorem canonical_of_split (h : split cs = .ok sections) : Canonical sections ∧ join sections = cs := by
  fun_induction split cs generalizing sections with
  | case1 =>
    cases h
    exact ⟨canonical_nil, rfl⟩
  | case2 => cases h
  | case3 c r q hq b t hr _ ih =>
    obtain rfl := SectionKind.eq_char_of_ofChar? hq
    obtain ⟨tail, htail, rfl⟩ := Outcome.map_eq_ok.1 h
    obtain ⟨hcanonical, rfl⟩ := ih htail
    obtain ⟨hwhole, hnext⟩ := readQuoted_whole hr
    obtain ⟨rfl, -⟩ := readQuoted_some hr
    refine ⟨canonical_cons.2 ⟨⟨b, rfl, hwhole⟩, hcanonical.head_iff.2 fun c hc hk => ?_, hcanonical⟩, rfl⟩
    exact hnext c hc (SectionKind.step_eq_quoted.1 hk)
  | case4 c r hc _ ih =>
    obtain ⟨tail, htail, rfl⟩ := Outcome.map_eq_ok.1 h
    obtain ⟨hcanonical, hjoin⟩ := ih htail
    have hcode : ∀ d ∈ c :: r.takeWhile isCode, isCode d := fun d hd => isCode_of_mem_code hc hd
    have htext : join (⟨.code, c :: r.takeWhile isCode⟩ :: tail) = c :: r := by
      rw [join_cons, hjoin, List.cons_append, List.takeWhile_append_dropWhile]
    refine ⟨canonical_cons.2 ⟨⟨by simp, hcode⟩, hcanonical.head_iff.2 fun d hd hk => ?_, hcanonical⟩, htext⟩
    rw [hjoin] at hd
    have hquote := List.head?_dropWhile_not isCode r
    rw [hd] at hquote
    exact absurd (SectionKind.step_eq_code.1 hk) (by simpa using hquote)

/-- The cut of a text is the canonical list that makes it up. -/
theorem split_eq_ok : split cs = .ok sections ↔ Canonical sections ∧ join sections = cs := by
  constructor
  · exact canonical_of_split
  · rintro ⟨h, rfl⟩
    exact h.split_join

theorem readQuoted_doubleQuotes (cs : List Char) :
    readQuoted '\x22' (doubleQuotes cs ++ ['\x22']) = some (doubleQuotes cs ++ ['\x22'], []) := by
  induction cs with
  | nil => exact readQuoted_quote_nil _
  | cons c cs ih =>
    rw [doubleQuotes, List.flatMap_cons, ← doubleQuotes]
    by_cases hc : c = '\x22'
    · rw [if_pos hc, List.append_assoc]
      show readQuoted _ ('\x22' :: '\x22' :: (doubleQuotes cs ++ ['\x22'])) = _
      rw [readQuoted_quote_quote, ih]
      rfl
    · rw [if_neg hc, List.append_assoc, List.singleton_append, readQuoted_cons_of_ne hc, ih]
      rfl

/-- A quoted name is one section. -/
theorem whole_quoteName (name : String) : IsWhole (.quoted .name) (quoteName name).toList := by
  refine ⟨doubleQuotes name.toList ++ ['\x22'], ?_, readQuoted_doubleQuotes name.toList⟩
  rw [quoteName, String.toList_ofList]
  rfl

/-! ### Changes of code -/

/-- A section, or other code in the place of code. -/
def Revised (s t : Section) : Prop := t = s ∨ s.kind = .code ∧ t.kind = .code ∧ IsWhole .code t.chars

/-- A canonical list stays one when its code is changed. -/
theorem Canonical.revise {revised : List Section} (h : Canonical sections)
    (hr : List.Forall₂ Revised sections revised) : Canonical revised := by
  have hkind : ∀ s t, Revised s t → t.kind = s.kind := by
    rintro s t (rfl | ⟨hs, ht, -⟩)
    · rfl
    · rw [hs, ht]
  induction hr with
  | nil => exact canonical_nil
  | @cons s t sections revised hst hr ih =>
    obtain ⟨hw, hne, htail⟩ := canonical_cons.1 h
    refine canonical_cons.2 ⟨?_, ?_, ih htail⟩
    · obtain rfl | ⟨-, ht, hwhole⟩ := hst
      · exact hw
      · rw [ht]
        exact hwhole
    · cases hr with
      | nil => simp
      | cons hst' _ => simpa [hkind _ _ hst, hkind _ _ hst'] using hne

/-- The quoted sections of a list. -/
def quoted (sections : List Section) : List Section := sections.filter (·.kind ≠ .code)

theorem quoted_cons (s : Section) (sections : List Section) :
    quoted (s :: sections) = if s.kind = .code then quoted sections else s :: quoted sections := by
  rw [quoted, List.filter_cons, ← quoted]
  by_cases h : s.kind = .code
  · rw [if_neg (by simpa using h), if_pos h]
  · rw [if_pos (by simpa using h), if_neg h]

theorem quoted_of_revised {revised : List Section} (hr : List.Forall₂ Revised sections revised) :
    quoted revised = quoted sections := by
  induction hr with
  | nil => rfl
  | @cons s t sections revised hst _ ih =>
    rw [quoted_cons, quoted_cons, ih]
    obtain rfl | ⟨hs, ht, -⟩ := hst
    · rfl
    · rw [if_pos ht, if_pos hs]

/-! ### Numbering -/

/-- The sections with the marks of their code numbered on from `next`. -/
def renumber (next : Int) : List Section → List Section
  | [] => []
  | ⟨.code, cs⟩ :: rest => ⟨.code, (Mark.numberCode next cs).1⟩ :: renumber (Mark.numberCode next cs).2 rest
  | ⟨.quoted q, cs⟩ :: rest => ⟨.quoted q, cs⟩ :: renumber next rest

theorem join_renumber (next : Int) (sections : List Section) :
    join (renumber next sections) = (Mark.numberSections next sections).1 := by
  induction sections generalizing next with
  | nil => rfl
  | cons s sections ih =>
    obtain ⟨kind, cs⟩ := s
    cases kind with
    | code => rw [renumber, join_cons, ih, numberSections_code]
    | quoted q => rw [renumber, join_cons, ih, numberSections_quoted]

theorem isCode_toString (n : Int) : ∀ c ∈ (toString n).toList, isCode c := by
  intro c hc
  rcases digit_or_minus_of_mem hc with hdigit | rfl
  · exact isCode_of_digit hdigit
  · rfl

theorem whole_numberCode (h : IsWhole .code cs) (next : Int) : IsWhole .code (Mark.numberCode next cs).1 := by
  obtain ⟨hne, hcode⟩ := h
  constructor
  · obtain ⟨c, cs, rfl⟩ := List.exists_cons_of_ne_nil hne
    rw [Mark.numberCode]
    split <;> simp
  · clear hne
    induction cs generalizing next with
    | nil => simp [Mark.numberCode]
    | cons c cs ih =>
      obtain ⟨hc, hcs⟩ := List.forall_mem_cons.1 hcode
      rw [Mark.numberCode]
      split
      · refine List.forall_mem_append.2 ⟨List.forall_mem_cons.2 ⟨rfl, isCode_toString next⟩, ih (next + 1) hcs⟩
      · exact List.forall_mem_cons.2 ⟨hc, ih next hcs⟩

theorem Canonical.revised_renumber (h : Canonical sections) (next : Int) :
    List.Forall₂ Revised sections (renumber next sections) := by
  induction sections generalizing next with
  | nil => exact .nil
  | cons s sections ih =>
    obtain ⟨hw, -, htail⟩ := canonical_cons.1 h
    obtain ⟨kind, cs⟩ := s
    cases kind with
    | code => exact .cons (.inr ⟨rfl, rfl, whole_numberCode hw next⟩) (ih htail _)
    | quoted q => exact .cons (.inl rfl) (ih htail next)

end Section

/-! ### Statement texts -/

open Section

variable {text : String} {sections : List Section}

theorem sectionsOf_eq_ok : sectionsOf text = .ok sections ↔ Section.split text.toList = .ok sections := by
  rw [sectionsOf]
  cases Section.split text.toList <;> simp [Except.mapError]

/-- The text of a canonical list is cut into it. -/
theorem sectionsOf_join (h : Canonical sections) : sectionsOf (String.ofList (join sections)) = .ok sections := by
  rw [sectionsOf_eq_ok, String.toList_ofList, h.split_join]

/-- Numbering the marks of a text numbers those of its sections. -/
theorem sectionsOf_numbered (h : sectionsOf text = .ok sections) (start : Int) :
    sectionsOf (numbered start text) = .ok (renumber start sections) := by
  obtain ⟨hcanonical, -⟩ := canonical_of_split (sectionsOf_eq_ok.1 h)
  have hjoin : numbered start text = String.ofList (join (renumber start sections)) := by
    rw [join_renumber, (split_ok (sectionsOf_eq_ok.1 h)).2 start]
    rfl
  rw [hjoin, sectionsOf_join (hcanonical.revise (hcanonical.revised_renumber start))]

/-- The quoted sections of a statement text, in order. -/
def quotedIn (sql : String) : Except Failure (List String) :=
  (sectionsOf sql).map fun sections => (quoted sections).map fun s => String.ofList s.chars

/-- Numbering leaves the quoted sections alone. -/
theorem quotedIn_numbered (h : Closed text) (start : Int) : quotedIn (numbered start text) = quotedIn text := by
  obtain ⟨sections, hs⟩ := exists_split h
  have hcut := sectionsOf_eq_ok.2 hs
  obtain ⟨hcanonical, -⟩ := canonical_of_split hs
  rw [quotedIn, quotedIn, hcut, sectionsOf_numbered hcut, Outcome.map_ok, Outcome.map_ok,
    quoted_of_revised (hcanonical.revised_renumber start)]

end RecordSql
