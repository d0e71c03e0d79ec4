import RecordSql.Proofs.Sql.Balance
import RecordSql.Proofs.Sql.Spelling

/-!
# Places of bound values

To a database, a statement text is characters and the places where values go. The text that a caller writes has a place
at every `?` outside of its quoted sections; the text that the database gets is read in the way of its style. This
module follows the places from the one to the other. Besides the marks of the caller, a dollar sign with a digit behind
it in code becomes a place, and digits that stand right behind a place are lost.

* `readPercent_styled`: what is read of a text in the percent style, or why it has none.
* `read_styled_numbered`: in every style the database reads the same characters and places, in the same order.
* `count_place_placesOf`: there are as many places as marks and stray numbers.
* `placesOf_eq_trimmed`: without stray numbers the places stand where the marks stood.
-/

namespace RecordSql

open Text (isDecimalDigit)

/-! ### Reading places -/

namespace SectionKind

/-- The items of a text in which a question mark in code is a place. -/
def items : SectionKind → List Char → List Item
  | _, [] => []
  | k, c :: rest => (if k = .code ∧ c = '?' then .place else .char c) :: items (k.step c) rest

/-- The items of a text in which a dollar sign with digits behind it, in code, is a place, and with `bare` a question
mark too. Digits right behind a place belong to it; `inRun` says that the last character read was of a place. -/
def placed (bare : Bool) : SectionKind → Bool → List Char → List Item
  | _, _, [] => []
  | k, inRun, c :: rest =>
    if k = .code ∧ inRun ∧ isDecimalDigit c then placed bare .code true rest
    else if k = .code ∧ (bare ∧ c = '?' ∨ c = '$' ∧ rest.head?.any isDecimalDigit) then
      .place :: placed bare .code true rest
    else .char c :: placed bare (k.step c) false rest

/-- How many dollar signs in code have a digit right behind them. -/
def strayCount : SectionKind → List Char → Nat
  | _, [] => 0
  | k, c :: rest =>
    (if k = .code ∧ c = '$' ∧ rest.head?.any isDecimalDigit then 1 else 0) + strayCount (k.step c) rest

end SectionKind

namespace Style

/-- The items that a database of the style reads. -/
def read (style : Style) (sql : String) : Option (List Item) :=
  match style with
  | .numeric => some (SectionKind.code.placed false false sql.toList)
  | .question => some (SectionKind.code.items sql.toList)
  | .percent => readPercent sql.toList

end Style

/-- The items without the digits that stand right behind a place; `inRun` says that the items begin there. -/
def trimmed (inRun : Bool) : List Item → List Item
  | [] => []
  | .place :: rest => .place :: trimmed true rest
  | .char c :: rest => if inRun ∧ isDecimalDigit c then trimmed true rest else .char c :: trimmed false rest

/-- The items of the text that a caller writes. -/
def itemsOf (text : String) : List Item := SectionKind.code.items text.toList

/-- The items of a text whose marks are numbered. -/
def numberedItemsOf (text : String) : List Item := SectionKind.code.placed false false text.toList

/-- How many numbers with a dollar sign before them stand in the code of a text. -/
def straysOf (text : String) : Nat := SectionKind.code.strayCount text.toList

/-! ### Characters -/

theorem not_digit_of_quote {c : Char} (h : (Quote.ofChar? c).isSome) : isDecimalDigit c = false := by
  obtain ⟨q, hq⟩ := Option.isSome_iff_exists.1 h
  obtain rfl := SectionKind.eq_char_of_ofChar? hq
  cases q <;> decide

theorem isCode_of_digit {c : Char} (h : isDecimalDigit c) : Section.isCode c := by
  rw [Section.isCode, Option.isNone_iff_eq_none]
  by_contra hq
  rw [not_digit_of_quote (Option.isSome_iff_ne_none.2 hq)] at h
  cases h

/-- Code ends before a quote. -/
theorem head_dropWhile_isCode (cs : List Char) : (cs.dropWhile Section.isCode).head?.any isDecimalDigit = false := by
  have hquote := List.head?_dropWhile_not Section.isCode cs
  cases hd : (cs.dropWhile Section.isCode).head? with
  | none => rfl
  | some d =>
    rw [hd] at hquote
    exact not_digit_of_quote (by simpa [Section.isCode, Option.isSome_iff_ne_none] using hquote)

/-- The number of a mark is written in digits. -/
theorem digits_toString {n : Int} (hn : 0 ≤ n) :
    ∃ d ds, (toString n).toList = d :: ds ∧ ∀ c ∈ d :: ds, isDecimalDigit c := by
  obtain ⟨m, rfl⟩ := Int.eq_ofNat_of_zero_le hn
  have hm : (toString (m : Int)).toList = Nat.toDigits 10 m := String.toList_ofList
  have hdigit : ∀ c ∈ Nat.toDigits 10 m, isDecimalDigit c := by
    intro c hc
    have h := Nat.isDigit_of_mem_toDigits (by decide) (by decide) hc
    have hlt : c.toNat < 0x80 := by
      rw [Char.isDigit, Bool.and_eq_true, decide_eq_true_eq, decide_eq_true_eq, UInt32.le_iff_toNat_le] at h
      exact Nat.lt_of_le_of_lt h.2 (by decide)
    rwa [isDecimalDigit, if_pos hlt]
  rw [hm]
  cases hd : Nat.toDigits 10 m with
  | nil =>
    have hpos := Nat.length_toDigits_pos (b := 10) (n := m)
    rw [hd] at hpos
    cases hpos
  | cons d ds => exact ⟨d, ds, rfl, hd ▸ hdigit⟩

/-- A number is written in digits, with a minus sign in front if it is negative. -/
theorem digit_or_minus_of_mem {n : Int} {c : Char} (h : c ∈ (toString n).toList) : isDecimalDigit c ∨ c = '-' := by
  have hnat : ∀ m : Int, 0 ≤ m → c ∈ (toString m).toList → isDecimalDigit c := by
    intro m hm hc
    obtain ⟨d, ds, hds, hdigits⟩ := digits_toString hm
    exact hdigits c (hds ▸ hc)
  cases n with
  | ofNat m => exact .inl (hnat m (by simp) h)
  | negSucc m =>
    have hminus : (toString (Int.negSucc m)).toList = '-' :: (toString ((m + 1 : Nat) : Int)).toList :=
      String.toList_append
    rw [hminus] at h
    rcases List.mem_cons.1 h with rfl | h
    · exact .inr rfl
    · exact .inl (hnat _ (by omega) h)

namespace SectionKind

variable {k : SectionKind} {bare inRun : Bool} {cs rest : List Char} {next : Int}

theorem step_digit {c : Char} (h : isDecimalDigit c) : step .code c = .code := step_of_isCode (isCode_of_digit h)

theorem after_digits (h : ∀ c ∈ cs, isDecimalDigit c) : after .code cs = .code :=
  after_of_isCode fun c hc => isCode_of_digit (h c hc)

/-! ### Places of numbered marks -/

/-- Digits behind a place belong to it. -/
theorem placed_digits (h : ∀ c ∈ cs, isDecimalDigit c) (rest : List Char) :
    placed bare .code true (cs ++ rest) = placed bare .code true rest := by
  induction cs with
  | nil => rfl
  | cons c cs ih =>
    rw [List.cons_append, placed, if_pos ⟨rfl, rfl, h c (by simp)⟩]
    exact ih fun d hd => h d (by simp [hd])

theorem placed_of_head (h : rest.head?.any isDecimalDigit = false) :
    placed bare k inRun rest = placed bare k false rest := by
  cases rest with
  | nil => rfl
  | cons c rest =>
    have hc : isDecimalDigit c = false := h
    simp [placed, hc]

/-- Numbering puts no digit to the front of a text and takes none away. -/
theorem head_number (next : Int) (cs : List Char) :
    (number .code next cs).head?.any isDecimalDigit = cs.head?.any isDecimalDigit := by
  cases cs with
  | nil => rfl
  | cons c cs =>
    rw [number]
    split
    · rename_i hc
      rw [hc.2]
      rfl
    · rfl

/-- A text with its marks numbered has the places of the text with its marks bare. -/
theorem placed_number (hn : 0 ≤ next) : placed false k inRun (number k next cs) = placed true k inRun cs := by
  induction cs generalizing k inRun next with
  | nil => rfl
  | cons c cs ih =>
    by_cases hm : k = .code ∧ c = '?'
    · obtain ⟨rfl, rfl⟩ := hm
      obtain ⟨d, ds, hds, hdigits⟩ := digits_toString hn
      have hstep : step .code '?' = .code := rfl
      have hhead : (d :: ds ++ number .code (next + 1) cs).head?.any isDecimalDigit := hdigits d (by simp)
      have hdollar : isDecimalDigit '$' = false := rfl
      have hmark : isDecimalDigit '?' = false := rfl
      rw [number, if_pos ⟨rfl, rfl⟩, hds, hstep, List.cons_append, placed, if_neg (by simp [hdollar]),
        if_pos ⟨rfl, .inr ⟨rfl, hhead⟩⟩, placed_digits hdigits, ih (by omega), placed, if_neg (by simp [hmark]),
        if_pos ⟨rfl, .inl ⟨rfl, rfl⟩⟩]
    · rw [number, if_neg hm, placed, placed, ih hn]
      -- no mark: `c` stays, and is read alike because the numbered rest begins with a digit just when the rest does
      by_cases hd : k = .code ∧ inRun ∧ isDecimalDigit c
      · obtain ⟨rfl, -, hc⟩ := id hd
        rw [if_pos hd, if_pos hd, step_digit hc, ih hn]
      · have hp : (k = .code ∧ (false ∧ c = '?' ∨ c = '$' ∧ (number (k.step c) next cs).head?.any isDecimalDigit)) ↔
            (k = .code ∧ (true ∧ c = '?' ∨ c = '$' ∧ cs.head?.any isDecimalDigit)) := by
          constructor
          · rintro ⟨rfl, hf | ⟨rfl, hh⟩⟩
            · cases hf.1
            · exact ⟨rfl, .inr ⟨rfl, head_number next cs ▸ hh⟩⟩
          · rintro ⟨rfl, hf | ⟨rfl, hh⟩⟩
            · exact absurd ⟨rfl, hf.2⟩ hm
            · exact ⟨rfl, .inr ⟨rfl, (head_number next cs).symm ▸ hh⟩⟩
        rw [if_neg hd, if_neg hd]
        by_cases hc : k = .code ∧ (true ∧ c = '?' ∨ c = '$' ∧ cs.head?.any isDecimalDigit)
        · rw [if_pos hc, if_pos (hp.2 hc)]
          obtain ⟨rfl, hf | ⟨rfl, -⟩⟩ := hc
          · exact absurd ⟨rfl, hf.2⟩ hm
          · exact congrArg _ (ih hn)
        · rw [if_neg hc, if_neg fun h => hc (hp.1 h)]

/-- Numbering changes nothing about where sections begin and end. -/
theorem after_number (hn : 0 ≤ next) : after k (number k next cs) = after k cs := by
  induction cs generalizing k next with
  | nil => rfl
  | cons c cs ih =>
    rw [number]
    split
    · rename_i hm
      obtain ⟨rfl, rfl⟩ := hm
      obtain ⟨d, ds, hds, hdigits⟩ := digits_toString hn
      have hstep : step .code '?' = .code := rfl
      rw [hds, List.cons_append, after_cons, show step .code '$' = .code from rfl, after_append, after_digits hdigits,
        after_cons, hstep]
      exact ih (by omega)
    · rw [after_cons, after_cons]
      exact ih hn

/-! ### Quoted sections -/

/-- Whatever of the text is in code is a quote. -/
def Enclosed : SectionKind → List Char → Prop
  | _, [] => True
  | k, c :: rest => (k = .code → (Quote.ofChar? c).isSome) ∧ Enclosed (k.step c) rest

theorem enclosed_of_readQuoted {q : Quote} {body : List Char} (h : Section.readQuoted q.char cs = some (body, rest)) :
    Enclosed (.quoted q) body := by
  fun_induction Section.readQuoted q.char cs generalizing body rest with
  | case1 => cases h
  | case2 =>
    cases h
    exact ⟨by simp, trivial⟩
  | case3 r ih =>
    obtain ⟨⟨b, t⟩, hb, heq⟩ := Option.map_eq_some_iff.1 h
    cases heq
    -- a doubled quote closes the section and opens it again
    have hclose : step (.quoted q) q.char = .code := if_pos rfl
    refine ⟨by simp, ?_⟩
    rw [hclose]
    refine ⟨fun _ => by cases q <;> rfl, ?_⟩
    rw [step_quote]
    exact ih hb
  | case4 d r hd =>
    cases h
    exact ⟨by simp, trivial⟩
  | case5 c r hc ih =>
    obtain ⟨⟨b, t⟩, hb, heq⟩ := Option.map_eq_some_iff.1 h
    cases heq
    have hstay : step (.quoted q) c = .quoted q := if_neg hc
    refine ⟨by simp, ?_⟩
    rw [hstay]
    exact ih hb

/-- A quoted section is enclosed, with its opening quote, and leads back into code. -/
theorem enclosed_section {q : Quote} {body : List Char} (h : Section.readQuoted q.char cs = some (body, rest)) :
    q.char :: cs = q.char :: body ++ rest ∧ Enclosed .code (q.char :: body) ∧ after .code (q.char :: body) = .code := by
  obtain ⟨rfl, hafter, -⟩ := Section.readQuoted_some h
  have hopen : step .code q.char = .quoted q := step_quote q
  refine ⟨rfl, ⟨fun _ => by cases q <;> rfl, hopen ▸ enclosed_of_readQuoted h⟩, ?_⟩
  rw [after_cons, hopen, hafter]

/-- There are no places in what is enclosed. -/
theorem placed_enclosed {body : List Char} (h : Enclosed k body) (rest : List Char) :
    placed bare k false (body ++ rest) = body.map .char ++ placed bare (k.after body) false rest := by
  induction body generalizing k with
  | nil => rfl
  | cons c body ih =>
    obtain ⟨hc, hbody⟩ := h
    have hplace : ¬ (k = .code ∧ (bare ∧ c = '?' ∨ c = '$' ∧ (body ++ rest).head?.any isDecimalDigit)) := by
      rintro ⟨hk, ⟨-, rfl⟩ | ⟨rfl, -⟩⟩
      · exact absurd (hc hk) (by decide)
      · exact absurd (hc hk) (by decide)
    rw [List.cons_append, placed, if_neg (by simp), if_neg hplace, ih hbody]
    rfl

end SectionKind

/-! ### Places of sections -/

namespace Section

variable {cs rest : List Char} {inRun : Bool} {sections : List Section}

/-- The places of code are those of the section; right behind a place, digits are left out. -/
theorem placed_code (hcode : ∀ c ∈ cs, isCode c) (hrest : rest.head?.any isDecimalDigit = false) :
    SectionKind.code.placed false inRun (cs ++ rest) =
      itemsOfCode (behind inRun cs) ++ SectionKind.code.placed false false rest := by
  induction cs generalizing inRun with
  | nil =>
    rw [behind_nil, itemsOfCode]
    exact SectionKind.placed_of_head hrest
  | cons c cs ih =>
    have ih : ∀ r, _ := fun r => @ih r fun d hd => hcode d (by simp [hd])
    have hstep : SectionKind.step .code c = .code := SectionKind.step_of_isCode (hcode c (by simp))
    have hdigits : (cs ++ rest).head?.any isDecimalDigit ↔ cs.takeWhile isDecimalDigit ≠ [] := by
      rw [takeWhile_ne_nil_iff]
      cases cs with
      | nil => simp [hrest]
      | cons d cs => rfl
    rw [List.cons_append, SectionKind.placed, hstep]
    by_cases hd : inRun ∧ isDecimalDigit c
    · rw [if_pos ⟨rfl, hd⟩, ih, behind_cons_of_digit hd]
    · rw [if_neg fun h => hd h.2, behind_cons hd, itemsOfCode]
      by_cases hm : c = '$' ∧ cs.takeWhile isDecimalDigit ≠ []
      · rw [if_pos ⟨rfl, .inr ⟨hm.1, hdigits.2 hm.2⟩⟩, if_pos hm, ih]
        rfl
      · rw [if_neg fun h => hm (h.2.elim (by simp) fun h => ⟨h.1, hdigits.1 h.2⟩), if_neg hm, ih]
        rfl

/-- The places of a text that is cut are those of its sections. -/
theorem placed_split (h : split cs = .ok sections) : SectionKind.code.placed false false cs = sections.flatMap items := by
  fun_induction split cs generalizing sections with
  | case1 =>
    cases h
    rfl
  | case2 => cases h
  | case3 c r q hq b t hr _ ih =>
    obtain rfl := SectionKind.eq_char_of_ofChar? hq
    obtain ⟨rest, hrest, rfl⟩ := Outcome.map_eq_ok.1 h
    obtain ⟨hr', henclosed, hafter⟩ := SectionKind.enclosed_section hr
    rw [hr', SectionKind.placed_enclosed henclosed, hafter, ih hrest, List.flatMap_cons]
    rfl
  | case4 c r hc _ ih =>
    obtain ⟨rest, hrest, rfl⟩ := Outcome.map_eq_ok.1 h
    have hcode := fun d hd => isCode_of_mem_code (d := d) (r := r) hc hd
    have hr : c :: r = c :: r.takeWhile isCode ++ r.dropWhile isCode := by
      rw [List.cons_append, List.takeWhile_append_dropWhile]
    rw [hr, placed_code hcode (head_dropWhile_isCode r), ih hrest, List.flatMap_cons]
    rfl

end Section

/-! ### Reading back -/

section Read

variable {k : SectionKind} {inRun : Bool}

/-- Question marks written for places are read as these places, and no others. -/
theorem SectionKind.items_write (cs : List Char) :
    k.items ((k.placed true inRun cs).flatMap (Style.write .question)) = k.placed true inRun cs := by
  induction cs generalizing k inRun with
  | nil => rfl
  | cons c cs ih =>
    rw [placed]
    split
    · rename_i hd
      obtain ⟨rfl, -, -⟩ := hd
      exact ih
    · split
      · rename_i hp
        obtain ⟨rfl, -⟩ := hp
        exact congrArg (Item.place :: ·) ih
      · rename_i hp
        have hmark : ¬ (k = .code ∧ c = '?') := fun h => hp ⟨h.1, .inl ⟨rfl, h.2⟩⟩
        show items k (c :: (placed true (k.step c) false cs).flatMap (Style.write .question)) = _
        rw [items, if_neg hmark, ih]

end Read

/-! ### Places and marks -/

section Count

variable {k : SectionKind} {inRun : Bool}

/-- A text has a place for each mark and for each stray number. -/
theorem SectionKind.count_place_placed (cs : List Char) :
    (k.placed true inRun cs).count .place = k.markCount cs + k.strayCount cs := by
  induction cs generalizing k inRun with
  | nil => rfl
  | cons c cs ih =>
    rw [placed, markCount, strayCount]
    split
    · rename_i hd
      obtain ⟨rfl, -, hc⟩ := hd
      have hmark : c ≠ '?' := by
        rintro rfl
        cases hc
      have hdollar : c ≠ '$' := by
        rintro rfl
        cases hc
      rw [ih, step_digit hc, if_neg fun h => hmark h.2, if_neg fun h => hdollar h.2.1, Nat.zero_add, Nat.zero_add]
    · split
      · rename_i hp
        obtain ⟨rfl, ⟨-, rfl⟩ | ⟨rfl, hh⟩⟩ := hp
        · rw [List.count_cons_self, ih, if_pos ⟨rfl, rfl⟩, if_neg (by simp), show step .code '?' = .code from rfl]
          omega
        · rw [List.count_cons_self, ih, if_neg (by simp), if_pos ⟨rfl, rfl, hh⟩, show step .code '$' = .code from rfl]
          omega
      · rename_i hp
        rw [List.count_cons_of_ne (by simp), ih, if_neg fun h => hp ⟨h.1, .inl ⟨rfl, h.2⟩⟩,
          if_neg fun h => hp ⟨h.1, .inr h.2⟩, Nat.zero_add, Nat.zero_add]

/-- Without stray numbers the places are where the marks are, and only digits right behind them are lost. -/
theorem SectionKind.placed_eq_trimmed {cs : List Char} (hs : k.strayCount cs = 0) (hk : inRun → k = .code) :
    k.placed true inRun cs = trimmed inRun (k.items cs) := by
  induction cs generalizing k inRun with
  | nil => rfl
  | cons c cs ih =>
    rw [strayCount, Nat.add_eq_zero_iff] at hs
    have hstray : ¬ (k = .code ∧ c = '$' ∧ cs.head?.any isDecimalDigit) := by simpa using hs.1
    rw [placed, items]
    split
    · rename_i hd
      obtain ⟨rfl, hr, hc⟩ := hd
      have hmark : c ≠ '?' := by
        rintro rfl
        cases hc
      have htail := hs.2
      rw [step_digit hc] at htail
      rw [if_neg fun h => hmark h.2, trimmed, if_pos ⟨hr, hc⟩, step_digit hc]
      exact ih htail fun _ => rfl
    · rename_i hd
      split
      · rename_i hp
        obtain ⟨rfl, ⟨-, rfl⟩ | h⟩ := hp
        · exact congrArg (Item.place :: ·) (ih hs.2 fun _ => rfl)
        · exact absurd ⟨rfl, h⟩ hstray
      · rename_i hp
        rw [if_neg fun h => hp ⟨h.1, .inl ⟨rfl, h.2⟩⟩, trimmed, if_neg fun h => hd ⟨hk h.1, h⟩, ih hs.2 (by simp)]

end Count

/-! ### Statement texts -/

theorem Closed.numbered {text : String} (h : Closed text) {start : Int} (hs : 0 ≤ start) :
    Closed (numbered start text) := by
  rw [Closed, RecordSql.numbered, String.toList_ofList, SectionKind.after_number hs]
  exact h

/-- A text in a style, written from its places. -/
theorem styled_of_closed {text : String} (h : Closed text) {style : Style} (hn : style ≠ .numeric) :
    styled text style = .ok (String.ofList ((numberedItemsOf text).flatMap style.write)) := by
  obtain ⟨sections, hs⟩ := exists_split h
  have hcut : sectionsOf text = .ok sections := by
    rw [sectionsOf, hs]
    rfl
  rw [styled_eq hn, hcut, Outcome.map_ok, numberedItemsOf, Section.placed_split hs]

/-- A text with a section that is never closed has no style but its own. -/
theorem styled_of_not_closed {text : String} (h : ¬ Closed text) {style : Style} (hn : style ≠ .numeric) :
    ∃ q, styled text style = .error (unclosed text q) := by
  cases hs : Section.split text.toList with
  | ok sections => exact absurd (closed_of_split hs) h
  | error q =>
    refine ⟨q, ?_⟩
    rw [styled_eq hn, sectionsOf, hs]
    rfl

/-- **The percent style is read as it is meant.** A text whose quoted sections are closed has a percent style, which is
read to its end. What is read is the text character by character, percent signs and quoted sections as they are, with one
place for each dollar sign in code and all the digits right behind it. Any other text has no percent style. -/
theorem readPercent_styled (text : String) :
    (Closed text →
      ∃ sql, styled text .percent = .ok sql ∧ readPercent sql.toList = some (numberedItemsOf text)) ∧
    (¬ Closed text → ∃ q, styled text .percent = .error (unclosed text q)) := by
  have hn : Style.percent ≠ .numeric := by simp
  refine ⟨fun h => ⟨_, styled_of_closed h hn, ?_⟩, fun h => styled_of_not_closed h hn⟩
  rw [String.toList_ofList]
  exact readPercent_write _

/-- Only one of the two numbers is a place, and none of the percent signs begins one. -/
theorem readPercent_styled_like :
    (∃ sql, styled "a%$12 LIKE '%s $1'" .percent = .ok sql ∧
      readPercent sql.toList = some ("a%".toList.map .char ++ .place :: " LIKE '%s $1'".toList.map .char)) ∧
    ∃ q, styled "a LIKE '%$1" .percent = .error (unclosed "a LIKE '%$1" q) := by
  have hitems : numberedItemsOf "a%$12 LIKE '%s $1'" =
      "a%".toList.map .char ++ .place :: " LIKE '%s $1'".toList.map .char := by decide +kernel
  refine ⟨?_, (readPercent_styled _).2 (by decide)⟩
  rw [← hitems]
  exact (readPercent_styled _).1 (by decide)

/-- The places that a database finds in a statement text, once its marks are numbered and written in its style. -/
def placesOf (text : String) : List Item := SectionKind.code.placed true false text.toList

theorem numberedItemsOf_numbered {start : Int} (hs : 0 ≤ start) (text : String) :
    numberedItemsOf (numbered start text) = placesOf text := by
  rw [numberedItemsOf, numbered, String.toList_ofList]
  exact SectionKind.placed_number hs

/-- In every style the database reads the same items. -/
theorem read_styled_numbered {text : String} (h : Closed text) (style : Style) :
    ∃ sql, styled (numbered 1 text) style = .ok sql ∧ style.read sql = some (placesOf text) := by
  have hplaced : numberedItemsOf (numbered 1 text) = placesOf text := numberedItemsOf_numbered (by decide) text
  have hwrite (hn : style ≠ .numeric) := hplaced ▸ styled_of_closed (h.numbered (by decide)) hn
  cases style with
  | numeric => exact ⟨_, rfl, congrArg some hplaced⟩
  | question =>
    refine ⟨_, hwrite (by simp), ?_⟩
    rw [Style.read, String.toList_ofList]
    exact congrArg some (SectionKind.items_write _)
  | percent =>
    refine ⟨_, hwrite (by simp), ?_⟩
    rw [Style.read, String.toList_ofList]
    exact readPercent_write _

theorem count_place_placesOf (text : String) : (placesOf text).count .place = marksOf text + straysOf text :=
  SectionKind.count_place_placed _

theorem placesOf_eq_trimmed {text : String} (h : straysOf text = 0) : placesOf text = trimmed false (itemsOf text) :=
  SectionKind.placed_eq_trimmed h (by simp)

end RecordSql
