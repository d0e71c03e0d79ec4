import RecordSql.Proofs.Sql.Walk
import RecordSql.Sql.Statement

/-!
# Balanced fragments

A fragment is balanced if its quoted sections are closed and it has a parameter for every mark outside of them. Balance
is kept by everything that puts fragments together, and a balanced fragment is always finished to a statement.
-/

namespace RecordSql

/-- A text with closed sections only, and without marks outside of them. -/
def MarkFree (text : String) : Prop := Closed text ∧ marksOf text = 0

instance (text : String) : Decidable (MarkFree text) :=
  inferInstanceAs (Decidable (Closed text ∧ marksOf text = 0))

/-- The quoted sections are closed, and every mark outside of them has its parameter. -/
def Fragment.Balanced (f : Fragment) : Prop := Closed f.text ∧ marksOf f.text = f.params.length

theorem MarkFree.append {a b : String} (ha : MarkFree a) (hb : MarkFree b) : MarkFree (a ++ b) :=
  ⟨ha.1.append hb.1, by rw [marksOf_append ha.1, ha.2, hb.2]⟩

theorem MarkFree.numbered_eq {text : String} (h : MarkFree text) (start : Int) : numbered start text = text :=
  numbered_of_marksOf_eq_zero h.2 start

theorem MarkFree.intercalate {separator : String} (hs : MarkFree separator) {texts : List String}
    (h : ∀ t ∈ texts, MarkFree t) : MarkFree (separator.intercalate texts) := by
  induction texts with
  | nil => rw [String.intercalate_nil]; decide
  | cons a l ih =>
    have ha := h a (by simp)
    cases l with
    | nil => rwa [String.intercalate_singleton]
    | cons b l =>
      rw [String.intercalate_cons_cons]
      exact (ha.append hs).append (ih fun t ht => h t (by simp [ht]))

/-! ### Quoted names -/

/-- Doubled quotes stay inside the name. -/
theorem walk_doubleQuotes (cs : List Char) :
    SectionKind.after (.quoted .name) (doubleQuotes cs) = .quoted .name ∧
      SectionKind.markCount (.quoted .name) (doubleQuotes cs) = 0 := by
  induction cs with
  | nil => exact ⟨rfl, rfl⟩
  | cons c cs ih =>
    rw [doubleQuotes, List.flatMap_cons, ← doubleQuotes, SectionKind.after_append, SectionKind.markCount_append]
    by_cases hc : c = Quote.name.char
    · rw [if_pos (show c = '\x22' from hc)]
      exact ⟨ih.1, by rw [show SectionKind.markCount _ _ = 0 by decide, Nat.zero_add]; exact ih.2⟩
    · have hstep : SectionKind.step (.quoted .name) c = .quoted .name := if_neg hc
      rw [if_neg (show ¬ c = '\x22' from hc), SectionKind.after_cons, hstep, SectionKind.markCount, hstep]
      exact ⟨ih.1, by rw [SectionKind.after_nil, ih.2]; simp [SectionKind.markCount]⟩

/-- A quoted name has no marks of its own, whatever characters it is made of. -/
theorem markFree_quoteName (name : String) : MarkFree (quoteName name) := by
  obtain ⟨h1, h2⟩ := walk_doubleQuotes name.toList
  have ho : SectionKind.step .code '\x22' = .quoted .name := SectionKind.step_quote .name
  constructor
  · rw [Closed, quoteName, String.toList_ofList, SectionKind.after_cons, ho, SectionKind.after_append, h1]
    rfl
  · rw [marksOf, quoteName, String.toList_ofList, SectionKind.markCount, ho, SectionKind.markCount_append, h2, h1]
    rfl

theorem markFree_qualify (table column : String) : MarkFree (qualify table column) :=
  ((markFree_quoteName table).append (by decide)).append (markFree_quoteName column)

namespace Fragment

variable {f g : Fragment} {fs : List Fragment}

@[simp] theorem text_plain (text : String) : (plain text).text = text := rfl

@[simp] theorem params_plain (text : String) : (plain text).params = [] := rfl

theorem balanced_plain {text : String} : (plain text).Balanced ↔ MarkFree text := Iff.rfl

/-! ### Joining -/

theorem join_cons_cons (separator : String) (f g : Fragment) (fs : List Fragment) :
    (join separator (f :: g :: fs)).text = f.text ++ separator ++ (join separator (g :: fs)).text :=
  String.intercalate_cons_cons

/-- Balanced fragments stay balanced with a separator without marks between them. -/
theorem balanced_join {separator : String} (hs : MarkFree separator) (h : ∀ f ∈ fs, f.Balanced) :
    (join separator fs).Balanced := by
  induction fs with
  | nil => exact ⟨by rw [Closed, join, List.map_nil, String.intercalate_nil]; rfl, rfl⟩
  | cons f fs ih =>
    obtain ⟨hf1, hf2⟩ := h f (by simp)
    cases fs with
    | nil =>
      rw [Balanced, join, List.map_singleton, String.intercalate_singleton]
      exact ⟨hf1, by simp [hf2]⟩
    | cons g fs =>
      obtain ⟨h1, h2⟩ := ih fun f hf => h f (by simp [hf])
      have hfs := hf1.append hs.1
      refine ⟨?_, ?_⟩
      · rw [join_cons_cons]
        exact hfs.append h1
      · rw [join_cons_cons, marksOf_append hfs, marksOf_append hf1, hf2, hs.2, h2]
        simp [join]

/-- Fragments one after the other, the marks of each numbered on from those before it. -/
def numberedOn : Int → List Fragment → String
  | _, [] => ""
  | next, f :: fs => numbered next f.text ++ numberedOn (next + f.params.length) fs

theorem numberedOn_append (next : Int) (fs gs : List Fragment) :
    numberedOn next (fs ++ gs) = numberedOn next fs ++ numberedOn (next + (fs.flatMap params).length) gs := by
  induction fs generalizing next with
  | nil => simp [numberedOn]
  | cons f fs ih =>
    rw [List.cons_append, numberedOn, numberedOn, ih, List.flatMap_cons, List.length_append, String.append_assoc]
    push_cast
    rw [Int.add_assoc]

theorem text_join_empty_cons (f : Fragment) (fs : List Fragment) :
    (join "" (f :: fs)).text = f.text ++ (join "" fs).text := by
  cases fs with
  | nil => simp [join]
  | cons g fs => rw [join_cons_cons, String.append_empty]

/-- Numbering fragments put together is numbering them one after the other. -/
theorem numbered_join_empty (h : ∀ f ∈ fs, f.Balanced) (next : Int) :
    numbered next (join "" fs).text = numberedOn next fs := by
  induction fs generalizing next with
  | nil => rw [join, List.map_nil, String.intercalate_nil]; rfl
  | cons f fs ih =>
    obtain ⟨hf1, hf2⟩ := h f (by simp)
    rw [text_join_empty_cons, numbered_append hf1, hf2, ih fun g hg => h g (by simp [hg]), numberedOn]

end Fragment

/-- A fragment is finished if its sections are closed and its marks are as many as its parameters. -/
theorem Statement.finish_eq_ok {f : Fragment} {s : Statement} : Statement.finish f = .ok s ↔
    Closed (f.text ++ ";") ∧ marksOf (f.text ++ ";") = f.params.length ∧ s = ⟨numbered 1 (f.text ++ ";"), f.params⟩ := by
  rw [finish, Outcome.bind_eq_ok]
  constructor
  · rintro ⟨⟨sql, count⟩, hn, h⟩
    obtain ⟨hc, rfl, rfl⟩ := numberMarks_eq_ok.1 hn
    by_cases hm : marksOf (f.text ++ ";") = f.params.length
    · simp only [hm, ne_eq, not_true_eq_false, if_false] at h
      cases h
      exact ⟨hc, hm, rfl⟩
    · simp only [ne_eq, hm, not_false_eq_true, if_true] at h
      cases h
  · rintro ⟨hc, hm, rfl⟩
    refine ⟨_, numberMarks_eq_ok.2 ⟨hc, rfl, rfl⟩, ?_⟩
    simp only [hm, ne_eq, not_true_eq_false, if_false]
    rfl

/-- A balanced fragment is finished, with its own parameters. -/
theorem Statement.finish_of_balanced {f : Fragment} (h : f.Balanced) :
    Statement.finish f = .ok ⟨numbered 1 f.text ++ ";", f.params⟩ := by
  obtain ⟨h1, h2⟩ := h
  have hend : MarkFree ";" := by decide
  have hm : marksOf (f.text ++ ";") = f.params.length := by
    rw [marksOf_append h1, h2, hend.2, Nat.add_zero]
  rw [finish_eq_ok, numbered_append h1, hend.numbered_eq]
  exact ⟨h1.append hend.1, hm, rfl⟩

end RecordSql
