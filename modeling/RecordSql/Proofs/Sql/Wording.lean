import RecordSql.Proofs.Sql.Balance
import RecordSql.Proofs.Sql.Restoration

/-!
# Texts worded with names

A text is worded with names from a list if it is plain code and quoted names from the list, no two of them side by side.
Texts of this kind are put together with code between them. In a finished statement of such a text the quoted sections
are those names, the marks of code are numbered without a gap, and numbering can be undone.
-/

namespace RecordSql

open Text (isDecimalDigit)

/-- A character of code that is no part of a numbered mark. -/
def isPlain (c : Char) : Bool := Section.isCode c && c != '$' && !isDecimalDigit c

theorem isPlain_iff {c : Char} : isPlain c ↔ Section.isCode c ∧ c ≠ '$' ∧ isDecimalDigit c = false := by
  simp [isPlain, and_assoc]

/-- Code between names. -/
def PlainCode (code : String) : Prop := code ≠ "" ∧ ∀ c ∈ code.toList, isPlain c

instance (code : String) : Decidable (PlainCode code) :=
  decidable_of_iff (code ≠ "" ∧ code.toList.all isPlain = true) (and_congr_right fun _ => List.all_eq_true)

/-- Plain characters and quoted names, no two names side by side. A text that is `free` may begin with a name. -/
inductive Spelt (names : List String) : Bool → List Char → Prop
  | nil {free : Bool} : Spelt names free []
  | code {free : Bool} {c : Char} {cs : List Char} : isPlain c → Spelt names true cs → Spelt names free (c :: cs)
  | name {n : String} {cs : List Char} : n ∈ names → Spelt names false cs →
    Spelt names true ((quoteName n).toList ++ cs)

/-- A text of plain code and quoted names from a list. Unless it is `free`, it does not begin with a name. -/
def Worded (names : List String) (free : Bool) (text : String) : Prop := Spelt names free text.toList

/-! ### Putting texts together -/

namespace Spelt

variable {names names' : List String} {free : Bool} {xs ys : List Char}

theorem relax (h : Spelt names free xs) : Spelt names true xs := by
  cases h with
  | nil => exact nil
  | code hc h => exact code hc h
  | name hn h => exact name hn h

theorem mono (hsub : ∀ n ∈ names, n ∈ names') (h : Spelt names free xs) : Spelt names' free xs := by
  induction h with
  | nil => exact nil
  | code hc _ ih => exact code hc ih
  | name hn _ ih => exact name (hsub _ hn) ih

theorem append (hx : Spelt names free xs) (hy : Spelt names false ys) : Spelt names free (xs ++ ys) := by
  induction hx with
  | @nil free =>
    cases free with
    | false => exact hy
    | true => exact hy.relax
  | code hc _ ih => exact code hc ih
  | name hn _ ih =>
    rw [List.append_assoc]
    exact name hn ih

theorem prepend (hx : ∀ c ∈ xs, isPlain c) (hne : xs ≠ []) (hy : Spelt names true ys) :
    Spelt names free (xs ++ ys) := by
  induction xs generalizing free with
  | nil => exact absurd rfl hne
  | cons c xs ih =>
    obtain ⟨hc, hxs⟩ := List.forall_mem_cons.1 hx
    by_cases hnil : xs = []
    · subst hnil
      exact code hc hy
    · exact code hc (ih hxs hnil)

end Spelt

namespace Worded

variable {names names' : List String} {free : Bool} {a b code : String}

theorem mono (hsub : ∀ n ∈ names, n ∈ names') (h : Worded names free a) : Worded names' free a := Spelt.mono hsub h

theorem append (ha : Worded names free a) (hb : Worded names false b) : Worded names free (a ++ b) := by
  rw [Worded, String.toList_append]
  exact Spelt.append ha hb

theorem prepend (hc : PlainCode code) (ha : Worded names true a) : Worded names free (code ++ a) := by
  rw [Worded, String.toList_append]
  exact Spelt.prepend hc.2 (by simpa using hc.1) ha

theorem empty : Worded names free "" := Spelt.nil

theorem of_plain (hc : PlainCode code) : Worded names free code := by
  have h : Worded names free (code ++ "") := prepend hc empty
  rwa [String.append_empty] at h

/-- Texts go together with code between them. -/
theorem between (ha : Worded names free a) (hc : PlainCode code) (hb : Worded names true b) :
    Worded names free (a ++ code ++ b) := by
  rw [String.append_assoc]
  exact ha.append (prepend hc hb)

theorem quoteName {n : String} (h : n ∈ names) : Worded names true (RecordSql.quoteName n) := by
  rw [Worded, ← List.append_nil (RecordSql.quoteName n).toList]
  exact Spelt.name h Spelt.nil

theorem qualify {table column : String} (ht : table ∈ names) (hc : column ∈ names) :
    Worded names true (RecordSql.qualify table column) :=
  (quoteName ht).between (by decide) (quoteName hc)

theorem intercalate {separator : String} (hs : PlainCode separator) {texts : List String}
    (h : ∀ t ∈ texts, Worded names true t) : Worded names true (separator.intercalate texts) := by
  induction texts with
  | nil =>
    rw [String.intercalate_nil]
    exact empty
  | cons a l ih =>
    obtain ⟨ha, hl⟩ := List.forall_mem_cons.1 h
    cases l with
    | nil => rwa [String.intercalate_singleton]
    | cons b l =>
      rw [String.intercalate_cons_cons]
      exact ha.between hs (ih hl)

end Worded

/-- A text worded with names that has no mark for a value. -/
structure Unmarked (names : List String) (free : Bool) (text : String) : Prop where
  worded : Worded names free text
  markFree : MarkFree text

namespace Unmarked

variable {names : List String} {free : Bool} {a b code : String}

theorem mono {names' : List String} (hsub : ∀ n ∈ names, n ∈ names') (h : Unmarked names free a) :
    Unmarked names' free a :=
  ⟨h.worded.mono hsub, h.markFree⟩

theorem prepend (hc : PlainCode code ∧ MarkFree code) (ha : Unmarked names true a) : Unmarked names free (code ++ a) :=
  ⟨Worded.prepend hc.1 ha.worded, hc.2.append ha.markFree⟩

theorem between (ha : Unmarked names free a) (hc : PlainCode code ∧ MarkFree code) (hb : Unmarked names true b) :
    Unmarked names free (a ++ code ++ b) :=
  ⟨ha.worded.between hc.1 hb.worded, (ha.markFree.append hc.2).append hb.markFree⟩

theorem quoteName {n : String} (h : n ∈ names) : Unmarked names true (RecordSql.quoteName n) :=
  ⟨Worded.quoteName h, markFree_quoteName n⟩

theorem qualify {table column : String} (ht : table ∈ names) (hc : column ∈ names) :
    Unmarked names true (RecordSql.qualify table column) :=
  ⟨Worded.qualify ht hc, markFree_qualify table column⟩

end Unmarked

/-! ### Sections -/

namespace Section

variable {names : List String} {free : Bool} {cs : List Char} {sections : List Section} {s : Section}

/-- Plain code, or a quoted name from the list. -/
def IsWorded (names : List String) (s : Section) : Prop :=
  (s.kind = .code ∧ ∀ c ∈ s.chars, isPlain c) ∨ ∃ n ∈ names, s = ⟨.quoted .name, (quoteName n).toList⟩

theorem IsWorded.plain (h : IsWorded names ⟨.code, cs⟩) : ∀ c ∈ cs, isPlain c := by
  obtain ⟨-, hcs⟩ | ⟨n, -, hn⟩ := h
  · exact hcs
  · cases hn

/-- The sections of a text of names and code. Neighbouring characters of code are in one section. -/
theorem sections_of_spelt (h : Spelt names free cs) : ∃ sections, Canonical sections ∧ join sections = cs ∧
    (∀ s ∈ sections, s.IsWorded names) ∧ (free = false → ∀ s ∈ sections.head?, s.kind = .code) := by
  induction h with
  | nil => exact ⟨[], canonical_nil, rfl, by simp, by simp⟩
  | @code free c cs hc _ ih =>
    obtain ⟨sections, hcanonical, rfl, hworded, -⟩ := ih
    have hcode : isCode c := (isPlain_iff.1 hc).1
    by_cases hhead : ∃ ds rest, sections = ⟨.code, ds⟩ :: rest
    · obtain ⟨ds, rest, rfl⟩ := hhead
      obtain ⟨⟨-, hds⟩, hne, hrest⟩ := canonical_cons.1 hcanonical
      obtain ⟨hplain, hworded⟩ := List.forall_mem_cons.1 hworded
      refine ⟨⟨.code, c :: ds⟩ :: rest, canonical_cons.2 ⟨⟨by simp, ?_⟩, hne, hrest⟩, rfl, ?_, by simp⟩
      · exact List.forall_mem_cons.2 ⟨hcode, hds⟩
      · exact List.forall_mem_cons.2 ⟨.inl ⟨rfl, List.forall_mem_cons.2 ⟨hc, hplain.plain⟩⟩, hworded⟩
    · refine ⟨⟨.code, [c]⟩ :: sections, canonical_cons.2 ⟨⟨by simp, by simpa using hcode⟩, ?_, hcanonical⟩, rfl, ?_,
        by simp⟩
      · rintro ⟨kind, ds⟩ hs rfl
        obtain ⟨rest, rfl⟩ := List.head?_eq_some_iff.1 hs
        exact hhead ⟨ds, rest, rfl⟩
      · exact List.forall_mem_cons.2 ⟨.inl ⟨rfl, by simpa using hc⟩, hworded⟩
  | @name n cs hn _ ih =>
    obtain ⟨sections, hcanonical, rfl, hworded, hhead⟩ := ih
    have hwhole := whole_quoteName n
    have hname : IsWorded names ⟨.quoted .name, (quoteName n).toList⟩ := .inr ⟨n, hn, rfl⟩
    -- which characters these are no longer matters
    generalize (quoteName n).toList = chars at hwhole hname ⊢
    refine ⟨⟨.quoted .name, chars⟩ :: sections, canonical_cons.2 ⟨hwhole, ?_, hcanonical⟩, rfl,
      List.forall_mem_cons.2 ⟨hname, hworded⟩, by simp⟩
    intro t ht
    rw [hhead rfl t ht]
    simp

theorem quoted_of_worded (h : ∀ s ∈ sections, s.IsWorded names) :
    ∃ quotedNames : List String, (∀ n ∈ quotedNames, n ∈ names) ∧
      (quoted sections).map (fun s => String.ofList s.chars) = quotedNames.map quoteName := by
  induction sections with
  | nil => exact ⟨[], by simp, rfl⟩
  | cons s sections ih =>
    obtain ⟨hs, htail⟩ := List.forall_mem_cons.1 h
    obtain ⟨quotedNames, hmem, hmap⟩ := ih htail
    obtain ⟨hkind, -⟩ | ⟨n, hn, rfl⟩ := hs
    · exact ⟨quotedNames, hmem, by rw [quoted_cons, if_pos hkind, hmap]⟩
    · refine ⟨n :: quotedNames, List.forall_mem_cons.2 ⟨hn, hmem⟩, ?_⟩
      rw [quoted_cons, if_neg (by simp), List.map_cons, List.map_cons, hmap, String.ofList_toList]

/-! ### Numbered marks -/

/-- The digits behind each dollar sign of code. -/
def numbersOfCode : List Char → List String
  | [] => []
  | c :: rest =>
    if c = '$' then String.ofList (rest.takeWhile isDecimalDigit) :: numbersOfCode rest else numbersOfCode rest

/-- The digits behind each dollar sign in the code of sections. -/
def numbersOf (sections : List Section) : List String :=
  sections.flatMap fun s => if s.kind = .code then numbersOfCode s.chars else []

theorem numbersOfCode_digits {ds : List Char} (h : ∀ d ∈ ds, isDecimalDigit d) (cs : List Char) :
    numbersOfCode (ds ++ cs) = numbersOfCode cs := by
  induction ds with
  | nil => rfl
  | cons d ds ih =>
    obtain ⟨hd, hds⟩ := List.forall_mem_cons.1 h
    have hdollar : d ≠ '$' := by
      rintro rfl
      cases hd
    rw [List.cons_append, numbersOfCode, if_neg hdollar, ih hds]

theorem not_digit_of_plain (h : ∀ c ∈ cs, isPlain c) : cs.head?.any isDecimalDigit = false := by
  cases cs with
  | nil => rfl
  | cons c cs =>
    have hc : isPlain c := h c (by simp)
    exact (isPlain_iff.1 hc).2.2

/-- Plain code that is numbered has the numbers of its marks, and no others. -/
theorem numbersOfCode_number (h : ∀ c ∈ cs, isPlain c) (next : Nat) :
    numbersOfCode (SectionKind.code.number next cs) =
      (List.range' next (SectionKind.code.markCount cs)).map toString := by
  induction cs generalizing next with
  | nil => rfl
  | cons c cs ih =>
    obtain ⟨hc, hcs⟩ := List.forall_mem_cons.1 h
    obtain ⟨hcode, hdollar, -⟩ := isPlain_iff.1 hc
    rw [SectionKind.number, SectionKind.markCount, SectionKind.step_of_isCode hcode]
    by_cases hm : c = '?'
    · obtain ⟨d, ds, hds, hdigits⟩ := digits_toString (Int.natCast_nonneg next)
      have hrest : (SectionKind.code.number ((next : Int) + 1) cs).takeWhile isDecimalDigit = [] := by
        refine not_not.1 (mt takeWhile_ne_nil_iff.1 ?_)
        simp [SectionKind.head_number, not_digit_of_plain hcs]
      have hnumber : String.ofList (d :: ds) = toString next := by
        rw [← hds, String.ofList_toList]
        rfl
      rw [if_pos ⟨rfl, hm⟩, if_pos ⟨rfl, hm⟩, hds, List.cons_append, numbersOfCode, if_pos rfl,
        List.takeWhile_append_of_pos hdigits, hrest, List.append_nil, hnumber, numbersOfCode_digits hdigits,
        Nat.add_comm 1, List.range'_succ, List.map_cons]
      exact congrArg _ (ih hcs (next + 1))
    · rw [if_neg fun h => hm h.2, if_neg fun h => hm h.2, numbersOfCode, if_neg hdollar, ih hcs, Nat.zero_add]

/-- Numbered sections have consecutive numbers. -/
theorem numbersOf_renumber (h : Canonical sections) (hw : ∀ s ∈ sections, s.IsWorded names) (next : Nat) :
    ∃ count : Nat, (Mark.numberSections next sections).2 = next + count ∧
      numbersOf (renumber next sections) = (List.range' next count).map toString := by
  induction sections generalizing next with
  | nil => exact ⟨0, rfl, rfl⟩
  | cons s sections ih =>
    obtain ⟨hs, -, htail⟩ := canonical_cons.1 h
    obtain ⟨hworded, hrest⟩ := List.forall_mem_cons.1 hw
    obtain ⟨kind, cs⟩ := s
    cases kind with
    | quoted q =>
      obtain ⟨count, hcount, hnumbers⟩ := ih htail hrest next
      exact ⟨count, by rw [numberSections_quoted, hcount], hnumbers⟩
    | code =>
      have hcs := hworded.plain
      have hnumber := SectionKind.numberCode_eq (next : Int) hs.2
      obtain ⟨count, hcount, hnumbers⟩ := ih htail hrest (next + SectionKind.code.markCount cs)
      push_cast at hcount hnumbers
      refine ⟨SectionKind.code.markCount cs + count, ?_, ?_⟩
      · rw [numberSections_code, hnumber, hcount]
        push_cast
        omega
      · rw [renumber, hnumber, numbersOf, List.flatMap_cons, ← numbersOf, hnumbers, if_pos rfl,
          numbersOfCode_number hcs, ← List.map_append, List.range'_append_1]

/-- Plain code has neither dollar signs nor digits. -/
theorem IsWorded.restorable (h : s.IsWorded names) : s.Restorable := by
  intro hcode
  obtain ⟨-, hplain⟩ | ⟨n, -, rfl⟩ := h
  · exact (List.pairwise_of_forall_mem_list fun c _ d hd _ => by simp [(isPlain_iff.1 (hplain d hd)).2.2]).isChain
  · cases hcode

end Section

/-- A text of names and code comes back from numbering. -/
theorem Worded.restorable {names : List String} {free : Bool} {a : String} (h : Worded names free a) :
    Restorable a := by
  obtain ⟨sections, hcanonical, hjoin, hsections, -⟩ := Section.sections_of_spelt h
  have hcut : sectionsOf a = .ok sections := sectionsOf_eq_ok.2 (Section.split_eq_ok.2 ⟨hcanonical, hjoin⟩)
  exact ⟨sections, hcut, fun s hs => (hsections s hs).restorable⟩

/-! ### Statements -/

open Section

/-- The numbered marks of a statement text, in order: the digits behind the dollar signs of its code. -/
def numbersIn (sql : String) : Except Failure (List String) := (sectionsOf sql).map numbersOf

/-- A statement in which names from a list stand for themselves and nothing else: its marks are numbered from one to the
number of its parameters, its quoted sections are names from the list, and these were the quoted sections of the text
before it was numbered, which is what the statement becomes again with question marks. -/
structure Statement.WordedFrom (s : Statement) (names : List String) (text : String) : Prop where
  numbering : numberMarks text 1 = .ok (s.sql, s.params.length)
  marks : numbersIn s.sql = .ok ((List.range' 1 s.params.length).map toString)
  quoted : ∃ quotedNames : List String, (∀ n ∈ quotedNames, n ∈ names) ∧
    quotedIn text = .ok (quotedNames.map quoteName) ∧ quotedIn s.sql = .ok (quotedNames.map quoteName)
  question : styled s.sql .question = .ok text

/-- A text of names and code with a parameter for every mark is finished to such a statement. -/
theorem Statement.worded_finish {names : List String} {f : Fragment} (hw : Worded names true f.text)
    (hb : f.Balanced) :
    ∃ s, Statement.finish f = .ok s ∧ s.params = f.params ∧ s.WordedFrom names (f.text ++ ";") := by
  have hw : Worded names true (f.text ++ ";") := hw.append (Worded.of_plain (by decide))
  obtain ⟨sections, hcanonical, hjoin, hsections, -⟩ := sections_of_spelt hw
  have hsplit : Section.split (f.text ++ ";").toList = .ok sections := split_eq_ok.2 ⟨hcanonical, hjoin⟩
  have hclosed : Closed (f.text ++ ";") := closed_of_split hsplit
  have hcut := sectionsOf_eq_ok.2 hsplit
  have hend : marksOf (f.text ++ ";") = f.params.length := by
    rw [marksOf_append hb.1, hb.2]
    rfl
  refine ⟨⟨numbered 1 (f.text ++ ";"), f.params⟩, Statement.finish_eq_ok.2 ⟨hclosed, hend, rfl⟩, rfl, ?_, ?_, ?_, ?_⟩
  · exact numberMarks_eq_ok.2 ⟨hclosed, rfl, hend.symm⟩
  · obtain ⟨count, hcount, hnumbers⟩ := numbersOf_renumber hcanonical hsections 1
    have hall := (split_ok hsplit).2 1
    have hlength : count = f.params.length := by
      rw [← hend, marksOf]
      have hnext : (Mark.numberSections 1 sections).2 = 1 + (count : Int) := hcount
      rw [hall] at hnext
      simp only at hnext
      omega
    rw [numbersIn, sectionsOf_numbered hcut, Outcome.map_ok, ← hlength]
    exact congrArg _ hnumbers
  · obtain ⟨quotedNames, hmem, hquoted⟩ := quoted_of_worded hsections
    have htext : quotedIn (f.text ++ ";") = .ok (quotedNames.map quoteName) := by
      rw [quotedIn, hcut, Outcome.map_ok, hquoted]
    exact ⟨quotedNames, hmem, htext, by rw [quotedIn_numbered hclosed, htext]⟩
  · exact (styled_numbered_eq_iff hclosed (by decide)).2 ⟨sections, hcut, fun s hs => (hsections s hs).restorable⟩

end RecordSql
