import RecordSql.Proofs.Database.Savepoint
import RecordSql.Proofs.Sql.Shape

/-!
# Names in quotes

Writing a name in quotes and taking the doubled quotes back are inverse to each other: the texts that are cut into one
section, a quoted name, are the quoted names, each of one name only. A quoted name stays this section in the middle of a
text, and what is around it is cut as if it were not there, as long as no double quote touches it from outside.

* `split_between`: the cut of a text around a quoted section, by the characters at the two seams.
* `sectionsOf_eq_whole`: the texts that are one quoted name.
* `quoteName_opaque`: quoted names alone, with a table, and in the middle of a text.
-/

namespace RecordSql

open Session (undouble undouble_cons unquote unquote_quoteName)

namespace Section

variable {q : Quote} {k : SectionKind} {sections first second : List Section} {cs cs' chars : List Char}

/-! ### Lists of sections one behind the other -/

/-- Two canonical lists make one if the sections at the seam are of different kinds. -/
theorem canonical_append : Canonical (first ++ second) ↔
    Canonical first ∧ Canonical second ∧ ∀ s ∈ first.getLast?, ∀ t ∈ second.head?, s.kind ≠ t.kind := by
  constructor
  · rintro ⟨hw, ha⟩
    obtain ⟨hw1, hw2⟩ := List.forall_mem_append.1 hw
    obtain ⟨ha1, ha2, hseam⟩ := List.isChain_append.1 ha
    exact ⟨⟨hw1, ha1⟩, ⟨hw2, ha2⟩, hseam⟩
  · rintro ⟨⟨hw1, ha1⟩, ⟨hw2, ha2⟩, hseam⟩
    exact ⟨List.forall_mem_append.2 ⟨hw1, hw2⟩, List.isChain_append.2 ⟨ha1, ha2, hseam⟩⟩

theorem join_append (first second : List Section) : join (first ++ second) = join first ++ join second :=
  List.flatMap_append

/-- Only a quoted section ends with its quote. -/
theorem IsWhole.getLast?_eq (h : IsWhole k cs) : cs.getLast? = some q.char ↔ k = .quoted q := by
  cases k with
  | code =>
    obtain ⟨-, hcode⟩ := h
    refine iff_of_false (fun hlast => ?_) (by simp)
    exact isCode_iff.1 (hcode _ (List.mem_of_getLast? hlast)) q rfl
  | quoted q' =>
    obtain ⟨inside, rfl, -⟩ := hasShape_iff.2 h
    rw [← List.cons_append, List.getLast?_concat]
    cases q <;> cases q' <;> decide

/-- A text ends with a quote if its last section is one of that quote. -/
theorem Canonical.last_iff (h : Canonical sections) :
    (∀ s ∈ sections.getLast?, s.kind ≠ .quoted q) ↔ (join sections).getLast? ≠ some q.char := by
  rcases List.eq_nil_or_concat' sections with rfl | ⟨init, s, rfl⟩
  · simp [join]
  · have hw : IsWhole s.kind s.chars := h.whole s (by simp)
    obtain ⟨c, chars, hchars, -⟩ := hw.exists_cons
    have hjoin : join (init ++ [s]) = join init ++ s.chars := by simp [join]
    have hlast : (join (init ++ [s])).getLast? = s.chars.getLast? := by
      rw [hjoin, List.getLast?_append_of_ne_nil _ (by simp [hchars])]
    rw [hlast, Ne, hw.getLast?_eq]
    simp

/-- A text begins with a quote if its first section is one of that quote. -/
theorem Canonical.first_iff (h : Canonical sections) :
    (∀ t ∈ sections.head?, .quoted q ≠ t.kind) ↔ (join sections).head? ≠ some q.char := by
  rw [h.head_iff]
  simp only [Ne, SectionKind.step_eq_quoted]
  constructor
  · intro hne hhead
    exact hne _ hhead rfl
  · rintro hne c hc rfl
    exact hne hc

/-! ### A quoted section between two texts -/

/-- A quoted section is put between two texts that are cut. The sections around it are theirs exactly if its quote does
not touch it from outside. -/
theorem split_between (h : split cs = .ok first) (h' : split cs' = .ok second) (hw : IsWhole (.quoted q) chars) :
    split (cs ++ chars ++ cs') = .ok (first ++ ⟨.quoted q, chars⟩ :: second) ↔
      cs.getLast? ≠ some q.char ∧ cs'.head? ≠ some q.char := by
  obtain ⟨hfirst, rfl⟩ := split_eq_ok.1 h
  obtain ⟨hsecond, rfl⟩ := split_eq_ok.1 h'
  have hjoin : join (first ++ ⟨.quoted q, chars⟩ :: second) = join first ++ chars ++ join second := by
    rw [join_append, join_cons, List.append_assoc]
  rw [split_eq_ok, canonical_append, canonical_cons, ← hfirst.last_iff, ← hsecond.first_iff]
  -- the texts agree in any case, so that only the neighbours of the quoted section count
  constructor
  · rintro ⟨⟨-, ⟨-, hnext, -⟩, hseam⟩, -⟩
    exact ⟨fun s hs => hseam s hs _ rfl, hnext⟩
  · rintro ⟨hlast, hnext⟩
    refine ⟨⟨hfirst, ⟨hw, hnext, hsecond⟩, ?_⟩, hjoin⟩
    rintro s hs t ht
    cases ht
    exact hlast s hs

/-- A text is one section of a kind if it is a whole one. -/
theorem split_eq_whole : split cs = .ok [⟨k, cs⟩] ↔ IsWhole k cs := by
  rw [split_eq_ok, canonical_cons]
  simp [canonical_nil, join]

/-! ### Quoted names -/

/-- The section that a name is written as. -/
def ofName (name : String) : Section := ⟨.quoted .name, (quoteName name).toList⟩

@[simp] theorem kind_ofName (name : String) : (ofName name).kind = .quoted .name := rfl

@[simp] theorem chars_ofName (name : String) : (ofName name).chars = (quoteName name).toList := by
  rw [ofName]

theorem whole_ofName (name : String) : IsWhole (ofName name).kind (ofName name).chars := by
  rw [kind_ofName, chars_ofName]
  exact whole_quoteName name

theorem Doubled.doubleQuotes_undouble (h : Doubled '\x22' cs) : doubleQuotes (undouble cs) = cs := by
  induction h with
  | nil => rfl
  | @pair cs _ ih =>
    rw [undouble, if_pos rfl, doubleQuotes, List.flatMap_cons, ← doubleQuotes, ih]
    rfl
  | @other c cs hc _ ih =>
    rw [undouble_cons hc, doubleQuotes, List.flatMap_cons, ← doubleQuotes, ih, if_neg hc]
    rfl

/-- A section that is a quoted name is written for the name that is in it. -/
theorem IsWhole.quoteName_unquote (h : IsWhole (.quoted .name) cs) : (quoteName (unquote cs)).toList = cs := by
  obtain ⟨inside, rfl, hinside⟩ := hasShape_iff.2 h
  have hname : (unquote ('\x22' :: (inside ++ ['\x22']))).toList = undouble inside := by
    rw [unquote, String.toList_ofList, List.tail_cons, List.dropLast_concat]
  show (quoteName (unquote ('\x22' :: (inside ++ ['\x22'])))).toList = '\x22' :: (inside ++ ['\x22'])
  rw [quoteName, String.toList_ofList, hname, hinside.doubleQuotes_undouble]

end Section

open Section

/-- The texts that are one section, a quoted name, and the name in it. -/
theorem sectionsOf_eq_whole {text name : String} :
    sectionsOf text = .ok [⟨.quoted .name, text.toList⟩] ∧ unquote text.toList = name ↔ text = quoteName name := by
  rw [sectionsOf_eq_ok, split_eq_whole]
  constructor
  · rintro ⟨h, rfl⟩
    exact String.toList_inj.1 h.quoteName_unquote.symm
  · rintro rfl
    exact ⟨whole_quoteName name, unquote_quoteName name⟩

theorem quoteName_inj {a b : String} : quoteName a = quoteName b ↔ a = b := by
  constructor
  · intro h
    rw [← unquote_quoteName a, h, unquote_quoteName]
  · rintro rfl
    rfl

/-- A column with its table is two names and the dot between them. -/
theorem sectionsOf_qualify (table column : String) :
    sectionsOf (qualify table column) = .ok [ofName table, ⟨.code, ['.']⟩, ofName column] := by
  have hdot : IsWhole .code ['.'] := ⟨by simp, List.forall_mem_singleton.2 rfl⟩
  have hcanonical : Canonical [ofName table, ⟨.code, ['.']⟩, ofName column] := by
    refine canonical_cons.2 ⟨whole_ofName table, by simp, canonical_cons.2 ⟨hdot, by simp, ?_⟩⟩
    exact canonical_cons.2 ⟨whole_ofName column, by simp, canonical_nil⟩
  rw [sectionsOf_eq_ok, split_eq_ok]
  exact ⟨hcanonical, by simp [join, qualify]⟩

theorem qualify_inj {table column table' column' : String} :
    qualify table column = qualify table' column' ↔ table = table' ∧ column = column' := by
  constructor
  · intro h
    have hcut := sectionsOf_qualify table column
    rw [h, sectionsOf_qualify table' column'] at hcut
    simpa [ofName, String.toList_inj, quoteName_inj, eq_comm] using hcut
  · rintro ⟨rfl, rfl⟩
    rfl

theorem sectionsOf_of_error {text : String} {q : Quote} (h : Section.split text.toList = .error q) :
    sectionsOf text = .error (unclosed text q) := by
  rw [sectionsOf, h]
  rfl

/-- **Quoted names are opaque.** A text is one section, a quoted name with a given name in it, exactly if it is that name
in quotes, and two columns with their tables are written alike only if they are the same. Behind a text that is cut, a
quoted name and a text behind it are cut exactly if that text is, and fail for the quote that it fails for. Their sections
are those of the first text, the name, and those of the text behind it, exactly if no double quote touches the name from
outside. -/
theorem quoteName_opaque (name : String) :
    (∀ text, sectionsOf text = .ok [⟨.quoted .name, text.toList⟩] ∧ unquote text.toList = name ↔
      text = quoteName name) ∧
    (∀ column name' column', qualify name column = qualify name' column' ↔ name = name' ∧ column = column') ∧
    ∀ before behind first, sectionsOf before = .ok first →
      match sectionsOf behind with
      | .ok second => ∃ sections, sectionsOf (before ++ quoteName name ++ behind) = .ok sections ∧
          (sections = first ++ ofName name :: second ↔
            before.toList.getLast? ≠ some '\x22' ∧ behind.toList.head? ≠ some '\x22')
      | .error _ => ∃ q, sectionsOf behind = .error (unclosed behind q) ∧
          sectionsOf (before ++ quoteName name ++ behind) = .error (unclosed (before ++ quoteName name ++ behind) q) := by
  refine ⟨fun text => sectionsOf_eq_whole, fun column name' column' => qualify_inj, ?_⟩
  intro before behind first hbefore
  rw [sectionsOf_eq_ok] at hbefore
  have hfront : Closed (before ++ quoteName name) := (closed_of_split hbefore).append (markFree_quoteName name).1
  cases hbehind : Section.split behind.toList with
  | ok second =>
    rw [sectionsOf_eq_ok.2 hbehind]
    obtain ⟨sections, hsections⟩ := exists_split (hfront.append (closed_of_split hbehind))
    refine ⟨sections, sectionsOf_eq_ok.2 hsections, ?_⟩
    rw [String.toList_append, String.toList_append] at hsections
    have hbetween := split_between hbefore hbehind (whole_quoteName name)
    rw [hsections, Except.ok.injEq] at hbetween
    exact hbetween
  | error q =>
    obtain ⟨front, hcut⟩ := exists_split hfront
    have hwhole : Section.split (before ++ quoteName name ++ behind).toList = .error q := by
      rw [String.toList_append]
      exact (split_append_error hcut).2 hbehind
    rw [sectionsOf_of_error hbehind]
    exact ⟨q, rfl, sectionsOf_of_error hwhole⟩

/-- The name is full of what could end it. It is cut out whole between two quoted texts with quotes of the other kind
inside, and it is not taken for a name and its table. Behind it a text can be left open, but the name cannot. -/
theorem quoteName_opaque_dotted :
    let name := "a\".\"b?'"
    let before := "t='''\"'"
    let behind := "='\"?'"
    let first : List Section := [⟨.code, ['t', '=']⟩, ⟨.quoted .text, "'''\"'".toList⟩]
    let second : List Section := [⟨.code, ['=']⟩, ⟨.quoted .text, "'\"?'".toList⟩]
    quoteName name = "\"a\"\".\"\"b?'\"" ∧ sectionsOf (quoteName name) = .ok [ofName name] ∧
      unquote (quoteName name).toList = name ∧ qualify name "c" ≠ qualify "a" "b?'\".\"c" ∧
      sectionsOf before = .ok first ∧ sectionsOf behind = .ok second ∧
      sectionsOf (before ++ quoteName name ++ behind) = .ok (first ++ ofName name :: second) ∧
      ∃ q, sectionsOf (before ++ quoteName name ++ "='") = .error (unclosed (before ++ quoteName name ++ "='") q) := by
  intro name before behind first second
  obtain ⟨halone, hqualified, hbetween⟩ := quoteName_opaque name
  obtain ⟨hone, hname⟩ := (halone (quoteName name)).2 rfl
  have hbefore : sectionsOf before = .ok first := sectionsOf_eq_ok.2 (by decide +kernel)
  have hbehind : sectionsOf behind = .ok second := sectionsOf_eq_ok.2 (by decide +kernel)
  have hopen : sectionsOf "='" = .error (unclosed "='" .text) := sectionsOf_of_error (by decide +kernel)
  refine ⟨by decide +kernel, by rw [hone, ofName], hname, fun h => ?_, hbefore, hbehind, ?_, ?_⟩
  · obtain ⟨htable, -⟩ := (hqualified _ _ _).1 h
    exact absurd htable (by decide)
  · have hclosed := hbetween before behind first hbefore
    rw [hbehind] at hclosed
    obtain ⟨sections, hsections, hiff⟩ := hclosed
    rw [hsections, hiff.2 (by decide)]
  · have hfailed := hbetween before "='" first hbefore
    rw [hopen] at hfailed
    obtain ⟨q, -, hunclosed⟩ := hfailed
    exact ⟨q, hunclosed⟩

end RecordSql
