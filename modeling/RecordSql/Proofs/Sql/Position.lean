import RecordSql.Proofs.Sql.Decomposition

/-!
# Marks by position

What stands in a numbered text for a character is decided by the character and the text before it: a question mark that
the walk over the text before it leads to in code is a mark, and its number counts the marks before it. All other
characters stand for themselves.

* `numberMarks_by_position`: numbering is this, for every text whose walk ends in code, and fails for every other.
-/

namespace RecordSql

/-- What stands in a numbered text for a character, by the text before it. -/
def Mark.written (start : Int) (before : List Char) (c : Char) : List Char :=
  if SectionKind.code.after before = .code ∧ c = '?' then
    '$' :: (toString (start + SectionKind.code.markCount before)).toList
  else [c]

namespace SectionKind

/-- The walk writes every character by its position. -/
theorem number_eq_flatMap (start : Int) (cs : List Char) :
    code.number start cs = cs.zipIdx.flatMap fun (c, i) => Mark.written start (cs.take i) c := by
  induction cs using List.reverseRecOn with
  | nil => rfl
  | append_singleton cs c ih =>
    have hlast : (code.after cs).number (start + code.markCount cs) [c] = Mark.written start cs c := by
      rw [number, Mark.written]
      split <;> simp [number]
    have hbefore : ∀ p ∈ cs.zipIdx,
        Mark.written start (cs.take p.2) p.1 = Mark.written start ((cs ++ [c]).take p.2) p.1 := by
      rintro ⟨d, i⟩ hp
      have hi : i < cs.length := by simpa using (List.mem_zipIdx hp).2.1
      rw [List.take_append_of_le_length hi.le]
    rw [number_append, ih, hlast, List.zipIdx_append, List.flatMap_append, List.flatMap_congr hbefore]
    simp

/-- A text with no question mark at all has no marks. -/
theorem markCount_of_notMem {k : SectionKind} {cs : List Char} (h : '?' ∉ cs) : k.markCount cs = 0 := by
  induction cs generalizing k with
  | nil => rfl
  | cons c cs ih =>
    obtain ⟨hc, hcs⟩ := not_or.1 (mt List.mem_cons.2 h)
    rw [markCount, if_neg fun hm => hc hm.2.symm, ih hcs]

/-- What is numbered has no marks. -/
theorem markCount_number (k : SectionKind) (next : Int) (cs : List Char) : k.markCount (k.number next cs) = 0 := by
  induction cs generalizing k next with
  | nil => rfl
  | cons c cs ih =>
    rw [number]
    split
    · rename_i hm
      obtain ⟨rfl, rfl⟩ := hm
      have hcode : code.after ('$' :: (toString next).toList) = .code :=
        after_of_isCode (List.forall_mem_cons.2 ⟨rfl, Section.isCode_toString next⟩)
      have hnone : '?' ∉ '$' :: (toString next).toList := by
        intro hmem
        rcases List.mem_cons.1 hmem with hdollar | hmem
        · cases hdollar
        · rcases digit_or_minus_of_mem hmem with hdigit | hminus
          · cases hdigit
          · cases hminus
      rw [markCount_append, markCount_of_notMem hnone, hcode, Nat.zero_add]
      exact ih .code (next + 1)
    · rename_i hm
      rw [markCount, if_neg hm, Nat.zero_add]
      exact ih (k.step c) next

end SectionKind

theorem numberMarks_of_quoted {text : String} {q : Quote} (h : SectionKind.code.after text.toList = .quoted q)
    (start : Int) :
    numberMarks text start = .error (.binding text ("unterminated " ++ q.char.toString ++ " quoted section")) := by
  rw [numberMarks, sectionsOf]
  cases hs : Section.split text.toList with
  | ok sections =>
    rw [(Section.split_ok hs).1] at h
    cases h
  | error q' =>
    rw [Section.split_error hs] at h
    cases h
    rfl

/-- **Numbering is a walk.** One walk from left to right, which knows whether it is in code, in a quoted text or in a
quoted name, decides it all: if it ends in a quoted section the numbering fails for it, and else every question mark
that it meets in code becomes a dollar sign with the next number, and all other characters stay. The quoted sections are
those of the text, and there is nothing left to number. -/
theorem numberMarks_by_position (text : String) (start : Int) :
    match SectionKind.code.after text.toList with
    | .quoted q =>
      numberMarks text start = .error (.binding text ("unterminated " ++ q.char.toString ++ " quoted section"))
    | .code => ∃ out sections sections', numberMarks text start = .ok (out, SectionKind.code.markCount text.toList) ∧
        out.toList = text.toList.zipIdx.flatMap (fun (c, i) => Mark.written start (text.toList.take i) c) ∧
        sectionsOf text = .ok sections ∧ sectionsOf out = .ok sections' ∧
        Section.quoted sections' = Section.quoted sections ∧ ∀ start', numberMarks out start' = .ok (out, 0) := by
  split
  · rename_i q hq
    exact numberMarks_of_quoted hq start
  · rename_i hclosed
    obtain ⟨sections, hs⟩ := exists_split hclosed
    have hcut := sectionsOf_eq_ok.2 hs
    have hout := sectionsOf_numbered hcut start
    have hagain : Closed (numbered start text) := closed_of_split (sectionsOf_eq_ok.1 hout)
    have hnone : marksOf (numbered start text) = 0 := by
      rw [marksOf, numbered, String.toList_ofList, SectionKind.markCount_number]
    refine ⟨numbered start text, sections, Section.renumber start sections, numberMarks_of_closed hclosed start, ?_,
      hcut, hout, ?_, fun start' => ?_⟩
    · rw [numbered, String.toList_ofList, SectionKind.number_eq_flatMap]
    · exact Section.quoted_of_revised ((Section.canonical_of_split hs).1.revised_renumber start)
    · rw [numberMarks_of_closed hagain, hnone, numbered_of_marksOf_eq_zero hnone]

example : (numberMarks "a = ? AND b = '?''\"?' OR \"c?\" = ?" 3).toOption =
    some ("a = $3 AND b = '?''\"?' OR \"c?\" = $4", 2) := by decide +kernel

end RecordSql
