import RecordSql.Proofs.Sql.Place
import RecordSql.Proofs.Sql.Reading

/-!
# Groups of conditions

The text of a tree of conditions is read to the tree: its leaves in their order, under the groups that were written
down. Numbering its marks does not change that, so it holds of a condition in a statement as well.

* `Plain.bare_numbered`: no parenthesis and no connective comes in with the numbers of marks.
* `numbered_render`: numbering a formula is numbering its texts.
* `ConditionTree.reads_as_built`: the reading of a condition, alone and behind WHERE.
-/

namespace RecordSql

open Text (isBlank)

namespace Reading

/-! ### Plain texts -/

/-- A text without quotes, parentheses and connectives. -/
def Plain (anyCase : Bool) (text : String) : Prop :=
  QuoteFree text ∧ ∀ p ∈ cut text, Token.ofPiece anyCase p = .other

instance (anyCase : Bool) (text : String) : Decidable (Plain anyCase text) :=
  inferInstanceAs (Decidable (_ ∧ _))

section Plain

variable {anyCase : Bool} {a b text : String}

theorem Plain.closed (h : Plain anyCase text) : Closed text := h.1.closed

theorem Plain.bare (h : Plain anyCase text) : Bare anyCase text := ⟨h.closed, h.2⟩

theorem Plain.append (ha : Plain anyCase a) (hb : Plain anyCase b)
    (h : a.toList.getLast?.any isWordChar = false ∨ b.toList.head?.any isWordChar = false) :
    Plain anyCase (a ++ b) :=
  ⟨quoteFree_append.2 ⟨ha.1, hb.1⟩, (ha.bare.append hb.bare h).2⟩

/-- Plain texts go together with a blank between them. -/
theorem Plain.spaced (ha : Plain anyCase a) (hb : Plain anyCase b) : Plain anyCase (a ++ " " ++ b) := by
  have hblank : Plain anyCase " " := by cases anyCase <;> decide
  rw [String.append_assoc]
  exact ha.append (hblank.append hb (.inl (by decide))) (.inr (by rw [String.toList_append]; rfl))

theorem plain_marks (anyCase : Bool) (count : Nat) : Plain anyCase (marks count) := by
  have hempty : Plain anyCase "" := by cases anyCase <;> decide
  have hmark : Plain anyCase "?" := by cases anyCase <;> decide
  have hcomma : Plain anyCase "," := by cases anyCase <;> decide
  induction count with
  | zero => exact hempty
  | succ count ih =>
    cases count with
    | zero => exact hmark
    | succ count =>
      have hmarks : marks (count + 2) = "?" ++ "," ++ marks (count + 1) := String.intercalate_cons_cons
      rw [hmarks]
      exact (hmark.append hcomma (.inl (by decide))).append ih (.inl (by decide))

theorem Atomic.mono {P Q : String → Prop} (hPQ : ∀ t, P t → Q t) (h : Atomic P text) : Atomic Q text := by
  rcases h with h | ⟨head, inside, rfl, hhead, hblank, hinside⟩
  · exact .inl (hPQ _ h)
  · exact .inr ⟨head, inside, rfl, hPQ _ hhead, hblank, hPQ _ hinside⟩

end Plain

/-! ### Numbers of marks -/

theorem isCode_of_isWordChar {c : Char} (h : isWordChar c = true) : Section.isCode c := by
  cases hq : Quote.ofChar? c with
  | none => rw [Section.isCode, hq]; rfl
  | some q =>
    rw [SectionKind.eq_char_of_ofChar? hq] at h
    cases q <;> cases h

theorem isWordChar_of_number {n : Nat} {c : Char} (h : c ∈ (toString (n : Int)).toList) : isWordChar c = true := by
  have hdigits : (toString (n : Int)).toList = Nat.toDigits 10 n := String.toList_ofList
  have hdigit := Nat.isDigit_of_mem_toDigits (by decide) (by decide) (hdigits ▸ h)
  simp [isWordChar, Char.isAlphanum, hdigit]

section Number

variable {w cs : List Char}

/-- A word in front of code is the beginning of the first piece, and the other pieces are those of the code. -/
theorem pieces_word (hw : ∀ c ∈ w, isWordChar c = true) (hne : w ≠ []) (cs : List Char) :
    ∃ p ps, pieces .code (w ++ cs) = p :: ps ∧ (∀ c ∈ w, c ∈ p) ∧ ∀ q ∈ ps, q ∈ pieces .code cs := by
  induction w with
  | nil => exact absurd rfl hne
  | cons c w ih =>
    obtain ⟨hc, hw⟩ := List.forall_mem_cons.1 hw
    have hstep := SectionKind.step_of_isCode (isCode_of_isWordChar hc)
    cases w with
    | nil =>
      rw [List.singleton_append, pieces, hstep]
      split
      · cases hp : pieces .code cs with
        | nil => exact ⟨[c], [], rfl, by simp, by simp⟩
        | cons p ps => exact ⟨c :: p, ps, rfl, by simp, fun q hq => List.mem_cons_of_mem p hq⟩
      · exact ⟨[c], pieces .code cs, rfl, by simp, fun q hq => hq⟩
    | cons d w =>
      obtain ⟨p, ps, hpieces, hp, hps⟩ := ih hw (List.cons_ne_nil d w)
      have hjoined : joined .code c d = true := by simp [joined, hc, hw d]
      rw [List.cons_append] at hpieces
      rw [List.cons_append, List.cons_append, pieces_cons_cons, hstep, hjoined, if_pos rfl, hpieces]
      exact ⟨c :: p, ps, rfl, List.forall_mem_cons.2 ⟨List.mem_cons_self, fun e he => List.mem_cons_of_mem c (hp e he)⟩,
        hps⟩

/-- Code is cut at a character that is no part of a word. -/
theorem pieces_cons_code {c : Char} (hw : ∀ d ∈ w, Section.isCode d) (hcode : Section.isCode c)
    (hc : isWordChar c = false) (cs : List Char) :
    pieces .code (w ++ c :: cs) = pieces .code w ++ [c] :: pieces .code cs := by
  have hstep := SectionKind.step_of_isCode hcode
  have hafter := SectionKind.after_of_isCode hw
  have hsingle : pieces .code ([c] ++ cs) = [[c]] ++ pieces .code cs := by
    rw [pieces_append, SectionKind.after_cons, hstep]
    · rfl
    · intro d hd e _
      obtain rfl := List.mem_singleton.1 (List.mem_of_getLast? hd)
      simp [joined, hstep, hc]
  rw [pieces_append, hafter, ← List.singleton_append, hsingle]
  · rfl
  · intro d _ e he
    obtain rfl := Option.some.inj he
    simp [joined, hafter, hc]

/-- The pieces of numbered code have no meaning if those of the code have none. -/
theorem other_number {anyCase : Bool} (hcs : ∀ c ∈ cs, Section.isCode c) (hw : ∀ c ∈ w, isWordChar c = true)
    (next : Nat) (h : ∀ p ∈ pieces .code (w ++ cs), Token.ofPiece anyCase p = .other) :
    ∀ p ∈ pieces .code (w ++ SectionKind.code.number next cs), Token.ofPiece anyCase p = .other := by
  -- the word in front is carried along, for a number may make it longer
  induction cs generalizing w next with
  | nil => exact h
  | cons c cs ih =>
    obtain ⟨hc, htail⟩ := List.forall_mem_cons.1 hcs
    have hword : ∀ d ∈ w, Section.isCode d := fun d hd => isCode_of_isWordChar (hw d hd)
    rw [SectionKind.number, SectionKind.step_of_isCode hc]
    by_cases hmark : c = '?'
    · subst hmark
      rw [if_pos ⟨rfl, rfl⟩]
      rw [pieces_cons_code hword hc (by decide), List.forall_mem_append, List.forall_mem_cons] at h
      have hlonger : ∀ d ∈ w ++ '$' :: (toString (next : Int)).toList, isWordChar d = true := by
        rw [List.forall_mem_append, List.forall_mem_cons]
        exact ⟨hw, rfl, fun d => isWordChar_of_number⟩
      have hnext := ih htail hlonger (next + 1) (by
        obtain ⟨p, ps, hpieces, hp, hps⟩ := pieces_word hlonger (by simp) cs
        rw [hpieces, List.forall_mem_cons]
        exact ⟨Token.ofPiece_of_mem anyCase (by decide) (hp '$' (by simp)), fun q hq => h.2.2 q (hps q hq)⟩)
      simpa using hnext
    · rw [if_neg fun hm => hmark hm.2]
      by_cases hc' : isWordChar c = true
      · have hlonger : ∀ d ∈ w ++ [c], isWordChar d = true := by
          rw [List.forall_mem_append, List.forall_mem_singleton]
          exact ⟨hw, hc'⟩
        have hnext := ih htail hlonger next (by rwa [List.append_assoc])
        rwa [List.append_assoc] at hnext
      · rw [pieces_cons_code hword hc (by simpa using hc'), List.forall_mem_append, List.forall_mem_cons] at h ⊢
        exact ⟨h.1, h.2.1, ih htail (w := []) (by simp) next h.2.2⟩

end Number

section Numbered

variable {anyCase : Bool} {text : String} {next : Int}

theorem Plain.bare_numbered (h : Plain anyCase text) (hn : 0 ≤ next) : Bare anyCase (numbered next text) := by
  obtain ⟨n, rfl⟩ := Int.eq_ofNat_of_zero_le hn
  refine ⟨h.closed.numbered hn, ?_⟩
  rw [cut, numbered, String.toList_ofList]
  exact other_number h.1 (w := []) (by simp) n h.2

theorem all_isBlank_number (next : Int) (cs : List Char) (k : SectionKind)
    (h : (k.number next cs).all isBlank = true) : cs.all isBlank = true := by
  induction cs generalizing next k with
  | nil => rfl
  | cons c cs ih =>
    rw [SectionKind.number] at h
    split at h
    · have hdollar : isBlank '$' = false := rfl
      rw [List.cons_append, List.all_cons, hdollar] at h
      cases h
    · rw [List.all_cons, Bool.and_eq_true] at h ⊢
      exact ⟨h.1, ih _ _ h.2⟩

/-- An atomic text of plain ones stays atomic when its marks are numbered. -/
theorem Atomic.numbered (h : Atomic (Plain anyCase) text) (hn : 0 ≤ next) :
    Atomic (Bare anyCase) (numbered next text) := by
  rcases h with h | ⟨head, inside, rfl, hhead, hblank, hinside⟩
  · exact .inl (h.bare_numbered hn)
  · refine .inr ⟨RecordSql.numbered next head, RecordSql.numbered (next + marksOf head) inside, ?_,
      hhead.bare_numbered hn, ?_, hinside.bare_numbered (by omega)⟩
    · have hopen := hhead.closed.append markFree_open.1
      rw [numbered_append (hopen.append hinside.closed), numbered_append hopen, numbered_append hhead.closed,
        marksOf_append hhead.closed, markFree_open.numbered_eq, markFree_close.numbered_eq, markFree_open.2,
        Nat.add_zero]
    · rw [← Bool.not_eq_true] at hblank ⊢
      refine mt (fun h => all_isBlank_number next _ .code ?_) hblank
      rwa [RecordSql.numbered, String.toList_ofList] at h

end Numbered

/-! ### Numbered formulas -/

mutual

/-- A formula with the marks of its texts numbered on from one to the next. -/
def renumbered (next : Int) : Formula → Formula
  | .atom text => .atom (numbered next text)
  | .allOf items => .allOf (renumberedAll next items)
  | .anyOf items => .anyOf (renumberedAll next items)

def renumberedAll (next : Int) : List Formula → List Formula
  | [] => []
  | f :: fs => renumbered next f :: renumberedAll (next + marksIn f.atoms) fs

end

/-- A group is numbered text by text. -/
theorem numbered_group {separator : String} (hs : MarkFree separator) {texts texts' atoms : List String} {next : Int}
    (h : ∀ t ∈ texts, Closed t) (hmarks : marksIn texts = marksIn atoms) (htexts : numberedEach next texts = texts') :
    marksOf ("(" ++ separator.intercalate texts ++ ")") = marksIn atoms ∧
      numbered next ("(" ++ separator.intercalate texts ++ ")") = "(" ++ separator.intercalate texts' ++ ")" := by
  have hclosed := Closed.intercalate hs h
  rw [marksOf_parens hclosed, marksOf_intercalate hs h, hmarks, numbered_parens hclosed, numbered_intercalate hs h,
    htexts]
  exact ⟨rfl, rfl⟩

mutual

/-- Numbering a formula is numbering its texts. -/
theorem numbered_render {P : String → Prop} (hP : ∀ t, P t → Closed t) : ∀ f : Formula, f.Filled P → ∀ next : Int,
    marksOf f.render = marksIn f.atoms ∧ numbered next f.render = (renumbered next f).render
  | .atom text, _, next => ⟨by simp [Formula.render, Formula.atoms, marksIn], rfl⟩
  | .allOf items, ⟨_, h⟩, next => by
    obtain ⟨hmarks, htexts⟩ := numbered_renderAll hP items h next
    exact numbered_group (by decide) (closed_renderAll hP items h) hmarks htexts
  | .anyOf items, ⟨_, h⟩, next => by
    obtain ⟨hmarks, htexts⟩ := numbered_renderAll hP items h next
    exact numbered_group (by decide) (closed_renderAll hP items h) hmarks htexts

theorem numbered_renderAll {P : String → Prop} (hP : ∀ t, P t → Closed t) : ∀ fs : List Formula,
    Formula.FilledAll P fs → ∀ next : Int, marksIn (Formula.renderAll fs) = marksIn (Formula.atomsAll fs) ∧
      numberedEach next (Formula.renderAll fs) = Formula.renderAll (renumberedAll next fs)
  | [], _, _ => ⟨rfl, rfl⟩
  | f :: fs, ⟨hf, hfs⟩, next => by
    obtain ⟨hmarks, htext⟩ := numbered_render hP f hf next
    obtain ⟨hmarksAll, htexts⟩ := numbered_renderAll hP fs hfs (next + marksIn f.atoms)
    constructor
    · rw [Formula.atomsAll, marksIn_append, ← hmarks, ← hmarksAll]
      rfl
    · rw [Formula.renderAll, numberedEach, htext, hmarks, htexts]
      rfl

end

mutual

theorem atoms_renumbered : ∀ (f : Formula) (next : Int), (renumbered next f).atoms = numberedEach next f.atoms
  | .atom _, _ => rfl
  | .allOf items, next | .anyOf items, next => by
    rw [renumbered, Formula.atoms, Formula.atoms, atoms_renumberedAll items next]

theorem atoms_renumberedAll : ∀ (fs : List Formula) (next : Int),
    Formula.atomsAll (renumberedAll next fs) = numberedEach next (Formula.atomsAll fs)
  | [], _ => rfl
  | f :: fs, next => by
    rw [renumberedAll, Formula.atomsAll, Formula.atomsAll, numberedEach_append, atoms_renumbered f,
      atoms_renumberedAll fs]

end

mutual

theorem filled_renumbered {anyCase : Bool} : ∀ (f : Formula) (next : Int), 0 ≤ next →
    f.Filled (Atomic (Plain anyCase)) → (renumbered next f).Filled (Atomic (Bare anyCase))
  | .atom _, _, hn, h => Atomic.numbered h hn
  | .allOf items, next, hn, ⟨hne, h⟩ | .anyOf items, next, hn, ⟨hne, h⟩ => by
    refine ⟨fun hnil => hne ?_, filledAll_renumbered items next hn h⟩
    cases items with
    | nil => rfl
    | cons f fs => cases hnil

theorem filledAll_renumbered {anyCase : Bool} : ∀ (fs : List Formula) (next : Int), 0 ≤ next →
    Formula.FilledAll (Atomic (Plain anyCase)) fs → Formula.FilledAll (Atomic (Bare anyCase)) (renumberedAll next fs)
  | [], _, _, _ => trivial
  | f :: fs, next, hn, ⟨hf, hfs⟩ => ⟨filled_renumbered f next hn hf, filledAll_renumbered fs _ (by omega) hfs⟩

end

section Truth

variable {T : Type} [Lattice T] [BoundedOrder T] (σ : Nat → T)

mutual

theorem truth_renumbered : ∀ (f : Formula) (next : Int) (i : Nat), (renumbered next f).truth σ i = f.truth σ i
  | .atom _, _, _ => rfl
  | .allOf items, next, i => meet_renumberedAll items next i
  | .anyOf items, next, i => join_renumberedAll items next i

theorem meet_renumberedAll : ∀ (fs : List Formula) (next : Int) (i : Nat),
    Formula.meet σ i (renumberedAll next fs) = Formula.meet σ i fs
  | [], _, _ => rfl
  | f :: fs, next, i => by
    rw [renumberedAll, Formula.meet, Formula.meet, truth_renumbered f, atoms_renumbered, length_numberedEach,
      meet_renumberedAll fs]

theorem join_renumberedAll : ∀ (fs : List Formula) (next : Int) (i : Nat),
    Formula.join σ i (renumberedAll next fs) = Formula.join σ i fs
  | [], _, _ => rfl
  | f :: fs, next, i => by
    rw [renumberedAll, Formula.join, Formula.join, truth_renumbered f, atoms_renumbered, length_numberedEach,
      join_renumberedAll fs]

end

end Truth

section Quotes

theorem quoteFree_group {texts : List String} :
    ∀ s ∈ [" AND ", " OR "], (∀ t ∈ texts, QuoteFree t) → QuoteFree ("(" ++ s.intercalate texts ++ ")") := by
  intro s hs h
  have hseparator : ∀ s ∈ [" AND ", " OR "], QuoteFree s := by decide
  have hlist : QuoteFree (s.intercalate texts) := by
    induction texts with
    | nil =>
      rw [String.intercalate_nil]
      decide
    | cons t ts ih =>
      obtain ⟨ht, hts⟩ := List.forall_mem_cons.1 h
      cases ts with
      | nil => rwa [String.intercalate_singleton]
      | cons u us =>
        rw [String.intercalate_cons_cons]
        exact quoteFree_append.2 ⟨quoteFree_append.2 ⟨ht, hseparator s hs⟩, ih hts⟩
  exact quoteFree_append.2 ⟨quoteFree_append.2 ⟨by decide, hlist⟩, by decide⟩

theorem quoteFree_atomic {anyCase : Bool} {text : String} (h : Atomic (Plain anyCase) text) : QuoteFree text := by
  rcases h with h | ⟨head, inside, rfl, hhead, -, hinside⟩
  · exact h.1
  · simp only [quoteFree_append]
    exact ⟨⟨⟨hhead.1, by decide⟩, hinside.1⟩, by decide⟩

theorem quoteFree_render {anyCase : Bool} {f : Formula} (h : f.Filled (Atomic (Plain anyCase))) : QuoteFree f.render :=
  render_of (fun _ => quoteFree_atomic) (fun s hs _ => quoteFree_group s hs) f h

end Quotes

/-- A formula of plain texts is read to its own truth, whatever numbers its marks are given. -/
theorem reads_numbered {anyCase : Bool} {f : Formula} (h : f.Filled (Atomic (Plain anyCase))) {next : Int}
    (hn : 0 ≤ next) : Reads anyCase (numbered next f.render) (numberedEach next f.atoms) f := by
  have hclosed : ∀ t, Atomic (Plain anyCase) t → Closed t := fun t ht => (ht.mono fun _ => Plain.bare).closed
  obtain ⟨g, hread, hatoms, htruth⟩ := reads_render (filled_renumbered f next hn h)
  rw [← (numbered_render hclosed f h next).2] at hread
  refine ⟨g, hread, by rw [hatoms, atoms_renumbered], fun σ => ?_⟩
  rw [htruth, truth_renumbered]

end Reading

/-! ### Trees -/

namespace ConditionTree

open Reading

mutual

/-- The leaves of a tree as texts, under its groups. -/
def formula : ConditionTree → Formula
  | .compare column operator _ => .atom (column ++ " " ++ operator ++ " ?")
  | .compareColumns left operator right => .atom (left ++ " " ++ operator ++ " " ++ right)
  | .member column values => .atom (column ++ " IN (" ++ marks values.length ++ ")")
  | .allOf items => .allOf (formulaAll items)
  | .anyOf items => .anyOf (formulaAll items)

def formulaAll : List ConditionTree → List Formula
  | [] => []
  | t :: ts => formula t :: formulaAll ts

end

mutual

theorem render_formula : ∀ t : ConditionTree, t.formula.render = t.rendered
  | .compare _ _ _ | .compareColumns _ _ _ | .member _ _ => rfl
  | .allOf items | .anyOf items => by rw [formula, Formula.render, renderAll_formulaAll items, rendered]

theorem renderAll_formulaAll : ∀ ts : List ConditionTree, Formula.renderAll (formulaAll ts) = renderedAll ts
  | [] => rfl
  | t :: ts => by rw [formulaAll, Formula.renderAll, render_formula t, renderAll_formulaAll ts, renderedAll]

end

/-- A group that is built has operands. -/
theorem formulaAll_ne_nil {items : List ConditionTree} {cs : List Condition} {keyword : String} {c : Condition}
    (hcs : buildAll items = .ok cs) (h : Condition.group keyword cs = .ok c) : formulaAll items ≠ [] := by
  cases items with
  | nil =>
    cases hcs
    cases h
  | cons t ts => exact List.cons_ne_nil _ _

mutual

/-- A tree that is built has no empty group, and its leaves are atomic if its texts are plain. -/
theorem filled_formula {anyCase : Bool} : ∀ (t : ConditionTree) {c : Condition}, t.build = .ok c →
    (∀ s ∈ t.texts, Plain anyCase s) → t.formula.Filled (Atomic (Plain anyCase))
  | .compare column operator _, _, _, ht => by
    rw [texts, List.forall_mem_cons, List.forall_mem_singleton] at ht
    have hmark : Plain anyCase "?" := plain_marks anyCase 1
    refine .inl ?_
    have hleaf := (ht.1.spaced ht.2).spaced hmark
    rwa [String.append_assoc] at hleaf
  | .compareColumns left operator right, _, _, ht => by
    rw [texts, List.forall_mem_cons, List.forall_mem_cons, List.forall_mem_singleton] at ht
    exact .inl ((ht.1.spaced ht.2.1).spaced ht.2.2)
  | .member column values, _, _, ht => by
    rw [texts, List.forall_mem_singleton] at ht
    have hin : Plain anyCase "IN " := by cases anyCase <;> decide
    refine .inr ⟨column ++ " " ++ "IN ", marks values.length, ?_, ht.spaced hin, ?_, plain_marks _ _⟩
    · simp only [String.append_assoc]
      rfl
    · rw [String.toList_append, List.all_append]
      exact Bool.and_false _
  | .allOf items, c, h, ht => by
    obtain ⟨cs, hcs, h⟩ := Outcome.bind_eq_ok.1 h
    exact ⟨formulaAll_ne_nil hcs h, filledAll_formulaAll items hcs ht⟩
  | .anyOf items, c, h, ht => by
    obtain ⟨cs, hcs, h⟩ := Outcome.bind_eq_ok.1 h
    exact ⟨formulaAll_ne_nil hcs h, filledAll_formulaAll items hcs ht⟩

theorem filledAll_formulaAll {anyCase : Bool} : ∀ (ts : List ConditionTree) {cs : List Condition},
    buildAll ts = .ok cs → (∀ s ∈ textsAll ts, Plain anyCase s) →
    Formula.FilledAll (Atomic (Plain anyCase)) (formulaAll ts)
  | [], _, _, _ => trivial
  | t :: ts, cs, h, ht => by
    obtain ⟨c, hc, h⟩ := Outcome.bind_eq_ok.1 h
    obtain ⟨cs, hcs, -⟩ := Outcome.bind_eq_ok.1 h
    rw [textsAll, List.forall_mem_append] at ht
    exact ⟨filled_formula t hc ht.1, filledAll_formulaAll ts hcs ht.2⟩

end

end ConditionTree

/-! ### Statements -/

section Statements

variable {keyword : String} {fs : List Fragment}

/-- A clause that stands in a statement is a fragment. -/
theorem clause_eq_ok {clause? : Option Clause} (h : clause keyword clause? = .ok fs) :
    ∃ f : Option Fragment, clause? = f.map .ok := by
  cases clause? with
  | none => exact ⟨none, rfl⟩
  | some c =>
    obtain ⟨f, rfl, -⟩ := Outcome.map_eq_ok.1 h
    exact ⟨some f, rfl⟩

variable {table : String} {c : Condition} {s : Statement}

/-- The clauses of a query that is compiled are fragments. -/
theorem exists_of_selectStatement {clauses : SelectClauses} {items : List String} {joins : List Fragment}
    (hc : clauses.filter = some (.ok c)) (h : selectStatement table clauses items joins = .ok s) :
    ∃ columns join : Option Fragment, clauses = ⟨columns.map .ok, join.map .ok, (some c).map .ok⟩ := by
  obtain ⟨columns?, join?, filter?⟩ := clauses
  obtain rfl : filter? = some (.ok c) := hc
  obtain ⟨f, hcolumns, h⟩ := Outcome.bind_eq_ok.1 h
  obtain ⟨fs, hjoin, -⟩ := Outcome.bind_eq_ok.1 h
  obtain ⟨join, rfl⟩ := clause_eq_ok hjoin
  cases columns? with
  | none => exact ⟨none, join, rfl⟩
  | some columns =>
    obtain rfl : columns = .ok f := hcolumns
    exact ⟨some f, join, rfl⟩

/-- The clauses of an update that is compiled are fragments. -/
theorem exists_of_updateStatement {clauses : UpdateClauses} (hc : clauses.filter = some (.ok c))
    (h : updateStatement table clauses = .ok s) :
    ∃ (assignments : Dict) (returning : Option Fragment),
      clauses = ⟨assignments, (some c).map .ok, returning.map .ok⟩ := by
  obtain ⟨assignments, filter?, returning?⟩ := clauses
  obtain rfl : filter? = some (.ok c) := hc
  by_cases hne : assignments.isEmpty
  · rw [updateStatement, if_pos hne] at h
    cases h
  · rw [updateStatement, if_neg hne] at h
    obtain ⟨names, -, h⟩ := Outcome.bind_eq_ok.1 h
    obtain ⟨ps, -, h⟩ := Outcome.bind_eq_ok.1 h
    obtain ⟨fs, -, h⟩ := Outcome.bind_eq_ok.1 h
    obtain ⟨gs, hreturning, -⟩ := Outcome.bind_eq_ok.1 h
    obtain ⟨returning, rfl⟩ := clause_eq_ok hreturning
    exact ⟨assignments, returning, rfl⟩

/-- A condition without quotes behind WHERE in a finished text, with only more code or a closed text before it. -/
theorem numbered_behind {before after : String} {c : Condition} (hbefore : Closed before) (hc : Closed c.text) :
    numbered 1 (before ++ " WHERE " ++ c.text ++ after) = numbered 1 before ++ " WHERE " ++
      numbered (1 + marksOf before) c.text ++ numbered (1 + marksOf before + marksOf c.text) after := by
  have hwhere : MarkFree " WHERE " := by decide
  have hleft := hbefore.append hwhere.1
  rw [numbered_append (hleft.append hc), numbered_append hleft, numbered_append hbefore, hwhere.numbered_eq,
    marksOf_append hleft, marksOf_append hbefore, hwhere.2, Nat.add_zero]
  push_cast
  rw [Int.add_assoc]

end Statements

namespace ConditionTree

open Reading

/-- A statement has a condition behind WHERE, its marks numbered on, and what stands there up to the returning clause or
the end is read to the tree of the condition. -/
def ReadsBehindWhere (anyCase : Bool) (tree : ConditionTree) (c : Condition) (s : Statement) : Prop :=
  ∃ before after : String, Closed before ∧ (after = "" ∨ ∃ returned, after = " RETURNING " ++ returned) ∧
    let next : Int := 1 + marksOf before
    s.sql = numbered 1 before ++ " WHERE " ++ numbered next c.text ++ numbered (next + marksOf c.text) (after ++ ";") ∧
    Reads anyCase (numbered next c.text) (numberedEach next tree.formula.atoms) tree.formula

/-- **Reading of conditions.** A tree whose texts have no quotes, parentheses and connectives is read as it was built:
its leaves in their order, and the truth of the tree under whatever is assigned to them. This holds of its text, and of
what stands behind WHERE in every query and update that is made with it. -/
theorem reads_as_built {anyCase : Bool} {tree : ConditionTree} {c : Condition} (hc : tree.build = .ok c)
    (ht : ∀ t ∈ tree.texts, Plain anyCase t) :
    Reads anyCase c.text tree.formula.atoms tree.formula ∧
    (∀ (table : String) (clauses : SelectClauses) (items : List String) (joins : List Fragment) (s : Statement),
      clauses.filter = some (.ok c) → selectStatement table clauses items joins = .ok s →
      tree.ReadsBehindWhere anyCase c s) ∧
    ∀ (table : String) (clauses : UpdateClauses) (s : Statement), clauses.filter = some (.ok c) →
      updateStatement table clauses = .ok s → tree.ReadsBehindWhere anyCase c s := by
  have hfilled := filled_formula tree hc ht
  have htext : tree.formula.render = c.text := by rw [render_formula, (build_eq_ok hc).1]
  have hfree : QuoteFree c.text := htext ▸ quoteFree_render hfilled
  have hplaced : ∀ {before after : String} {s : Statement}, Closed before →
      (after = "" ∨ ∃ returned, after = " RETURNING " ++ returned) →
      s.sql = numbered 1 (before ++ " WHERE " ++ c.text ++ (after ++ ";")) → tree.ReadsBehindWhere anyCase c s := by
    intro before after s hbefore hafter hsql
    refine ⟨before, after, hbefore, hafter, hsql.trans (numbered_behind hbefore hfree.closed), ?_⟩
    rw [← htext]
    exact reads_numbered hfilled (by omega)
  refine ⟨?_, ?_, ?_⟩
  · exact htext ▸ reads_render (hfilled.mono fun _ ha => ha.mono fun _ => Plain.bare)
  · intro table clauses items joins s hfilter hs
    obtain ⟨columns, join, rfl⟩ := exists_of_selectStatement hfilter hs
    rw [selectStatement_eq] at hs
    obtain ⟨hend, -, rfl⟩ := Statement.finish_eq_ok.1 hs
    let before :=
      selectSql table (columns.map Fragment.text) (join.map Fragment.text) items (joins.map Fragment.text) none
    -- the condition is the last clause, so what is before it is closed if the whole is
    have hsql : (Fragment.join "" (selectParts table columns join (some c) items joins)).text =
        before ++ " WHERE " ++ c.text := by
      rw [Fragment.text_selectParts]
      simp [before, selectSql, clauseSql, String.append_assoc]
    rw [hsql, String.append_assoc, String.append_assoc] at hend
    refine hplaced (closed_of_append ?_ hend) (.inl rfl) (by rw [hsql]; rfl)
    simp only [quoteFree_append]
    exact ⟨by decide, hfree, by decide⟩
  · intro table clauses s hfilter hs
    obtain ⟨assignments, returning, rfl⟩ := exists_of_updateStatement hfilter hs
    obtain ⟨-, names, ps, hnames, hps, hs⟩ := (updateStatement_eq_ok table).1 hs
    obtain ⟨-, -, rfl⟩ := Statement.finish_eq_ok.1 hs
    have hset := (balanced_set (length_names_eq hnames hps)).1
    have hbefore : Closed ("UPDATE " ++ quoteName table ++ " SET " ++ setText names) :=
      (markFree_updateHead table).1.append hset
    have hafter : clauseSql " RETURNING " (returning.map Fragment.text) = "" ∨
        ∃ returned, clauseSql " RETURNING " (returning.map Fragment.text) = " RETURNING " ++ returned := by
      cases returning with
      | none => exact .inl rfl
      | some f => exact .inr ⟨f.text, rfl⟩
    refine hplaced hbefore hafter ?_
    rw [Fragment.text_updateParts, updateSql]
    simp [clauseSql, String.append_assoc]

/-- A group of one, a group of AND in one of OR, and a list of values, behind WHERE in a query. -/
theorem reads_as_built_nested :
    let tree : ConditionTree := .anyOf [.compare "a" "=" (.integer 1),
      .allOf [.member "b" [.text "x", .null], .allOf [.compareColumns "c" "<" "d"]]]
    let c : Condition := ⟨"(a = ? OR (b IN (?,?) AND (c < d)))",
      [⟨.integer, .integer 1⟩, ⟨.text, .text "x"⟩, ⟨.null, .null⟩]⟩
    tree.build = .ok c ∧ (∀ t ∈ tree.texts, Plain true t) ∧
      Reads true c.text ["a = ?", "b IN (?,?)", "c < d"] tree.formula ∧
      ∃ s, selectStatement "t" ⟨none, none, some (.ok c)⟩ [] [] = .ok s ∧ tree.ReadsBehindWhere true c s := by
  intro tree c
  have hbuild : tree.build = .ok c := rfl
  have hplain : ∀ t ∈ tree.texts, Plain true t := by decide +kernel
  have hbalanced : ∀ f ∈ some c, f.Balanced := by
    intro f hf
    obtain rfl := Option.mem_some.1 hf
    exact ⟨by decide, by decide⟩
  obtain ⟨s, hs⟩ : ∃ s, selectStatement "t" ⟨none, none, some (.ok c)⟩ [] [] = .ok s :=
    ⟨_, @selectStatement_of_balanced "t" none none (some c) [] [] (by simp) (by simp) hbalanced (by simp) (by simp)⟩
  obtain ⟨halone, hselect, -⟩ := reads_as_built hbuild hplain
  exact ⟨hbuild, hplain, halone, s, hs, hselect _ _ _ _ _ rfl hs⟩

end ConditionTree

end RecordSql
