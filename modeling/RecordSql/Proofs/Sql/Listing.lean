import RecordSql.Proofs.Sql.Noninterference

/-!
# Marks in lists

Rows, cells, assignments and comparisons are texts in a list with a separator between them. In a numbered list every
text has its marks numbered on from those of the texts before it, so that the number of a mark can be read off its
place in the list.

* `numbered_intercalate`: the numbered list, text by text.
* `getElem?_numberedEach`: what stands at a place of it.
* `numbered_marked`: a list of texts with one mark each, at their ends.
* `closed_of_append`, `balanced_of_finish`: what a statement that is finished says of its last clause.
-/

namespace RecordSql

open Fragment

/-- Texts in a list, each with its marks numbered on from those before it. -/
def numberedEach : Int → List String → List String
  | _, [] => []
  | next, t :: ts => numbered next t :: numberedEach (next + marksOf t) ts

/-- How many marks there are in a list of texts. -/
def marksIn : List String → Nat
  | [] => 0
  | t :: ts => marksOf t + marksIn ts

section Lists

variable {separator : String} {texts : List String}

theorem length_numberedEach (next : Int) (texts : List String) : (numberedEach next texts).length = texts.length := by
  induction texts generalizing next with
  | nil => rfl
  | cons t ts ih => rw [numberedEach, List.length_cons, ih, List.length_cons]

/-- The marks of a text in a list are numbered on from all marks before it. -/
theorem getElem?_numberedEach (next : Int) (texts : List String) (i : Nat) :
    (numberedEach next texts)[i]? = texts[i]?.map (numbered (next + marksIn (texts.take i))) := by
  induction texts generalizing next i with
  | nil => rfl
  | cons t ts ih =>
    cases i with
    | zero => simp [numberedEach, marksIn]
    | succ i => simp [numberedEach, marksIn, ih, Int.add_assoc]

theorem marksIn_append (texts texts' : List String) : marksIn (texts ++ texts') = marksIn texts + marksIn texts' := by
  induction texts with
  | nil => simp [marksIn]
  | cons t ts ih => simp [marksIn, ih, Nat.add_assoc]

theorem numberedEach_append (next : Int) (texts texts' : List String) :
    numberedEach next (texts ++ texts') = numberedEach next texts ++ numberedEach (next + marksIn texts) texts' := by
  induction texts generalizing next with
  | nil => simp [numberedEach, marksIn]
  | cons t ts ih => simp [numberedEach, marksIn, ih, Int.add_assoc]

theorem Closed.intercalate (hs : MarkFree separator) (h : ∀ t ∈ texts, Closed t) :
    Closed (separator.intercalate texts) := by
  induction texts with
  | nil => rw [String.intercalate_nil]; decide
  | cons t ts ih =>
    obtain ⟨ht, hts⟩ := List.forall_mem_cons.1 h
    cases ts with
    | nil => rwa [String.intercalate_singleton]
    | cons u us =>
      rw [String.intercalate_cons_cons]
      exact (ht.append hs.1).append (ih hts)

theorem marksOf_intercalate (hs : MarkFree separator) (h : ∀ t ∈ texts, Closed t) :
    marksOf (separator.intercalate texts) = marksIn texts := by
  induction texts with
  | nil => rw [String.intercalate_nil]; rfl
  | cons t ts ih =>
    obtain ⟨ht, hts⟩ := List.forall_mem_cons.1 h
    cases ts with
    | nil => simp [marksIn]
    | cons u us =>
      rw [String.intercalate_cons_cons, marksOf_append (ht.append hs.1), marksOf_append ht, hs.2, ih hts]
      simp [marksIn]

/-- Numbering a list is numbering its texts one after the other. -/
theorem numbered_intercalate (hs : MarkFree separator) (h : ∀ t ∈ texts, Closed t) (next : Int) :
    numbered next (separator.intercalate texts) = separator.intercalate (numberedEach next texts) := by
  induction texts generalizing next with
  | nil => rw [String.intercalate_nil]; rfl
  | cons t ts ih =>
    obtain ⟨ht, hts⟩ := List.forall_mem_cons.1 h
    cases ts with
    | nil => rw [numberedEach, numberedEach, String.intercalate_singleton, String.intercalate_singleton]
    | cons u us =>
      rw [String.intercalate_cons_cons, numbered_append (ht.append hs.1), numbered_append ht, hs.numbered_eq,
        marksOf_append ht, hs.2, Nat.add_zero, ih hts, numberedEach]
      exact String.intercalate_cons_cons.symm

end Lists

/-! ### Parentheses and single marks -/

theorem markFree_open : MarkFree "(" := by decide

theorem markFree_close : MarkFree ")" := by decide

section Parens

variable {inside : String} (h : Closed inside)

include h

theorem Closed.parens : Closed ("(" ++ inside ++ ")") := (markFree_open.1.append h).append markFree_close.1

theorem marksOf_parens : marksOf ("(" ++ inside ++ ")") = marksOf inside := by
  rw [marksOf_append (markFree_open.1.append h), marksOf_append markFree_open.1, markFree_open.2, markFree_close.2,
    Nat.zero_add, Nat.add_zero]

theorem numbered_parens (next : Int) : numbered next ("(" ++ inside ++ ")") = "(" ++ numbered next inside ++ ")" := by
  rw [numbered_append (markFree_open.1.append h), numbered_append markFree_open.1, markFree_open.numbered_eq,
    markFree_open.2, markFree_close.numbered_eq, Int.natCast_zero, Int.add_zero]

end Parens

/-- A mark becomes a dollar sign with its number. -/
theorem numbered_mark (next : Int) : numbered next "?" = "$" ++ toString next := by
  have hmark : "?".toList = ['?'] := rfl
  rw [numbered, hmark, SectionKind.number, if_pos ⟨rfl, rfl⟩, SectionKind.number, List.append_nil, ← String.toList_inj,
    String.toList_ofList, String.toList_append]
  rfl

section Marked

variable {α : Type} {head : α → String} (h : ∀ a, MarkFree (head a))

include h

/-- Marks behind texts without marks are numbered one by one. -/
theorem numberedEach_marked (l : List α) (next : Nat) : numberedEach next (l.map fun a => head a ++ "?") =
    (l.zipIdx next).map fun (a, n) => head a ++ "$" ++ toString n := by
  induction l generalizing next with
  | nil => rfl
  | cons a l ih =>
    obtain ⟨hclosed, hnone⟩ := h a
    have hone : marksOf (head a ++ "?") = 1 := by rw [marksOf_append hclosed, hnone]; decide
    have hrest := ih (next + 1)
    push_cast at hrest
    have htext : numbered next (head a ++ "?") = head a ++ "$" ++ toString next := by
      rw [numbered_append hclosed, (h a).numbered_eq, hnone, Int.natCast_zero, Int.add_zero, numbered_mark,
        String.append_assoc]
      rfl
    rw [List.map_cons, numberedEach, hone, List.zipIdx_cons, List.map_cons, htext]
    exact congrArg _ hrest

theorem closed_marked (l : List α) : ∀ t ∈ l.map fun a => head a ++ "?", Closed t := by
  intro t ht
  obtain ⟨a, -, rfl⟩ := List.mem_map.1 ht
  exact (h a).1.append (show Closed "?" by decide)

theorem numbered_marked {separator : String} (hs : MarkFree separator) (l : List α) (next : Nat) :
    numbered next (separator.intercalate (l.map fun a => head a ++ "?")) =
      separator.intercalate ((l.zipIdx next).map fun (a, n) => head a ++ "$" ++ toString n) := by
  rw [numbered_intercalate hs (closed_marked h l), numberedEach_marked h]

end Marked

/-! ### Texts without quotes -/

/-- A text without quotes. -/
def QuoteFree (text : String) : Prop := ∀ c ∈ text.toList, Section.isCode c

instance (text : String) : Decidable (QuoteFree text) :=
  decidable_of_iff (text.toList.all Section.isCode = true) List.all_eq_true

theorem QuoteFree.closed {text : String} (h : QuoteFree text) : Closed text := SectionKind.after_of_isCode h

theorem quoteFree_append {a b : String} : QuoteFree (a ++ b) ↔ QuoteFree a ∧ QuoteFree b := by
  rw [QuoteFree, String.toList_append, List.forall_mem_append]
  rfl

/-- A text without quotes closes no quoted section. -/
theorem closed_of_append {a b : String} (hb : QuoteFree b) (h : Closed (a ++ b)) : Closed a := by
  have hquoted : ∀ (q : Quote) (cs : List Char), (∀ c ∈ cs, Section.isCode c) →
      SectionKind.after (.quoted q) cs = .quoted q := by
    intro q cs hcs
    induction cs with
    | nil => rfl
    | cons c cs ih =>
      obtain ⟨hc, hcs⟩ := List.forall_mem_cons.1 hcs
      have hne : c ≠ q.char := by
        rintro rfl
        cases q <;> cases hc
      rw [SectionKind.after_cons, SectionKind.step, if_neg hne, ih hcs]
  rw [Closed, String.toList_append, SectionKind.after_append] at h
  rw [Closed]
  cases hk : SectionKind.code.after a.toList with
  | code => rfl
  | quoted q =>
    rw [hk, hquoted q _ hb] at h
    cases h

/-- A statement is finished from balanced clauses and one more only if that one is balanced too. -/
theorem balanced_of_finish {fs : List Fragment} {f : Fragment} {s : Statement} (h : ∀ g ∈ fs, g.Balanced)
    (hs : Statement.finish (Fragment.join "" (fs ++ [f])) = .ok s) : f.Balanced := by
  obtain ⟨hclosed, hmarks, -⟩ := Statement.finish_eq_ok.1 hs
  obtain ⟨hbefore, hcount⟩ := balanced_join (show MarkFree "" by decide) h
  have htext : (Fragment.join "" (fs ++ [f])).text = (Fragment.join "" fs).text ++ f.text := by
    simp [text_join_empty, String.join_append]
  have hend : MarkFree ";" := by decide
  rw [htext, String.append_assoc] at hclosed hmarks
  have hf : Closed f.text := by
    refine closed_of_append (b := ";") (by decide) ?_
    rwa [Closed, String.toList_append, SectionKind.after_append, hbefore] at hclosed
  refine ⟨hf, ?_⟩
  rw [marksOf_append hbefore, marksOf_append hf, hend.2, hcount] at hmarks
  simpa [Fragment.join] using hmarks

end RecordSql
