import RecordSql.Proofs.Outcome
import RecordSql.Sql.Mark

/-!
# Sections in a style

A section holds characters and places for values: in code, a dollar sign with its digits is a place, and everything else
is a character. A style writes a section item by item. In the percent style, two percent signs are one of the text, and
a percent sign with an `s` is a place, so that what is written in it can be read from left to right without doubt.

* `Mark.respell_eq`, `styled_eq`: what a style makes of a section and of a text, by the items.
* `readPercent_write`: what is read of items that are written in the percent style.
-/

namespace RecordSql

open Text (isDecimalDigit)

/-- A character of a statement text, or a place for a value. -/
inductive Item
  | char (c : Char)
  | place
  deriving DecidableEq, Repr

namespace Style

/-- An item in the style. Where marks keep their numbers, places are not written anew. -/
def write : Style → Item → List Char
  | .percent, .char c => if c = '%' then ['%', '%'] else [c]
  | .percent, .place => ['%', 's']
  | _, .char c => [c]
  | _, .place => ['?']

end Style

/-- The items of a text in which a percent sign is written twice, and a percent sign before an `s` is a place. No other
character may follow one. -/
def readPercent : List Char → Option (List Item)
  | [] => some []
  | '%' :: '%' :: rest => (readPercent rest).map (.char '%' :: ·)
  | '%' :: 's' :: rest => (readPercent rest).map (.place :: ·)
  | c :: rest => if c = '%' then none else (readPercent rest).map (.char c :: ·)

/-! ### Sections in a style -/

namespace Section

/-- Code, with a dollar sign and all the digits behind it as one place. Without digits the sign is a character. -/
def itemsOfCode : List Char → List Item
  | [] => []
  | c :: rest =>
    have : (rest.dropWhile isDecimalDigit).length ≤ rest.length := (List.dropWhile_suffix _).length_le
    if c = '$' ∧ rest.takeWhile isDecimalDigit ≠ [] then .place :: itemsOfCode (rest.dropWhile isDecimalDigit)
    else .char c :: itemsOfCode rest
termination_by cs => cs.length

/-- What a section holds: places only in code, and all characters that belong to none. -/
def items (s : Section) : List Item :=
  match s.kind with
  | .code => itemsOfCode s.chars
  | .quoted _ => s.chars.map .char

theorem takeWhile_ne_nil_iff {p : Char → Bool} {cs : List Char} : cs.takeWhile p ≠ [] ↔ cs.head?.any p := by
  cases cs with
  | nil => simp
  | cons c cs => by_cases hc : p c <;> simp [hc]

/-- What is read of code; right behind a place, the digits belong to it. -/
def behind (inRun : Bool) (cs : List Char) : List Char := if inRun then cs.dropWhile isDecimalDigit else cs

theorem behind_nil (inRun : Bool) : behind inRun [] = [] := by
  cases inRun <;> rfl

theorem behind_cons_of_digit {inRun : Bool} {c : Char} {cs : List Char} (h : inRun ∧ isDecimalDigit c) :
    behind inRun (c :: cs) = behind true cs := by
  rw [behind, if_pos h.1, List.dropWhile_cons_of_pos h.2]
  rfl

theorem behind_cons {inRun : Bool} {c : Char} {cs : List Char} (h : ¬ (inRun ∧ isDecimalDigit c)) :
    behind inRun (c :: cs) = c :: cs := by
  rw [behind]
  split
  · exact List.dropWhile_cons_of_neg fun hc => h ⟨‹_›, hc⟩
  · rfl

end Section

namespace Mark

open Section (itemsOfCode behind takeWhile_ne_nil_iff)

variable {style : Style} {cs : List Char} {inRun : Bool}

/-- Characters in a style. -/
def writeChars (style : Style) (cs : List Char) : List Char := cs.flatMap fun c => style.write (.char c)

theorem writeChars_of_ne (h : style ≠ .percent) (cs : List Char) : writeChars style cs = cs := by
  induction cs with
  | nil => rfl
  | cons c cs ih =>
    rw [writeChars, List.flatMap_cons, ← writeChars, ih]
    cases style <;> first | rfl | exact absurd rfl h

theorem head_writeChars (style : Style) (cs : List Char) : (writeChars style cs).head? = cs.head? := by
  cases cs with
  | nil => rfl
  | cons c cs =>
    rw [writeChars, List.flatMap_cons]
    cases style with
    | numeric | question => rfl
    | percent =>
      by_cases hc : c = '%'
      · subst hc
        rfl
      · rw [Style.write, if_neg hc]
        rfl

theorem respell_quoted (style : Style) (q : Quote) (cs : List Char) :
    respell style ⟨.quoted q, cs⟩ = writeChars style cs := by
  cases style with
  | numeric | question => exact (writeChars_of_ne (by simp) cs).symm
  | percent => rfl

theorem respell_code (h : style ≠ .numeric) (cs : List Char) :
    respell style ⟨.code, cs⟩ = respellCode (style.write .place) false (writeChars style cs) := by
  cases style with
  | numeric => exact absurd rfl h
  | question =>
    rw [writeChars_of_ne (by simp)]
    rfl
  | percent => rfl

theorem respellCode_cons_of_not_digit {mark : List Char} {c : Char} (h1 : isDecimalDigit c = false) (h2 : c ≠ '$') :
    respellCode mark inRun (c :: cs) = c :: respellCode mark false cs := by
  rw [respellCode, if_neg (by simp [h1]), if_neg (by simp [h2])]

theorem write_char_of_ne {c : Char} (h : c ≠ '%') : style.write (.char c) = [c] := by
  cases style with
  | numeric | question => rfl
  | percent => exact if_neg h

theorem respellCode_writePercent (mark : List Char) (inRun : Bool) (cs : List Char) :
    respellCode mark inRun (style.write (.char '%') ++ cs) = style.write (.char '%') ++ respellCode mark false cs := by
  have hpercent : isDecimalDigit '%' = false := rfl
  have hdollar : '%' ≠ '$' := by decide
  cases style with
  | numeric | question => exact respellCode_cons_of_not_digit hpercent hdollar
  | percent =>
    exact (respellCode_cons_of_not_digit hpercent hdollar).trans
      (congrArg _ (respellCode_cons_of_not_digit hpercent hdollar))

/-- Code in a style is written item by item. -/
theorem respellCode_writeChars (cs : List Char) (inRun : Bool) :
    respellCode (style.write .place) inRun (writeChars style cs) =
      (itemsOfCode (behind inRun cs)).flatMap style.write := by
  induction cs generalizing inRun with
  | nil => simp [writeChars, respellCode, itemsOfCode, Section.behind_nil]
  | cons c cs ih =>
    have hcons : writeChars style (c :: cs) = style.write (.char c) ++ writeChars style cs := List.flatMap_cons
    have hdigits : cs.takeWhile isDecimalDigit ≠ [] ↔ (writeChars style cs).head?.any isDecimalDigit := by
      rw [takeWhile_ne_nil_iff, head_writeChars]
    by_cases hd : inRun ∧ isDecimalDigit c
    · have hwrite : style.write (.char c) = [c] := write_char_of_ne (by rintro rfl; cases hd.2)
      rw [hcons, hwrite, List.singleton_append, respellCode, if_pos (by simpa using hd), ih,
        Section.behind_cons_of_digit hd]
    · rw [hcons, Section.behind_cons hd, itemsOfCode]
      by_cases hc : c = '%'
      · -- a percent sign that is doubled is neither a digit nor a dollar sign
        subst hc
        rw [if_neg (by simp), List.flatMap_cons, respellCode_writePercent, ih]
        rfl
      · rw [write_char_of_ne hc, List.singleton_append, respellCode, if_neg (by simpa using hd)]
        by_cases hm : c = '$' ∧ cs.takeWhile isDecimalDigit ≠ []
        · rw [if_pos ⟨hm.1, hdigits.1 hm.2⟩, if_pos hm, ih, List.flatMap_cons]
          rfl
        · rw [if_neg fun h => hm ⟨h.1, hdigits.2 h.2⟩, if_neg hm, ih, List.flatMap_cons, write_char_of_ne hc]
          rfl

theorem respell_eq (h : style ≠ .numeric) (s : Section) : respell style s = s.items.flatMap style.write := by
  obtain ⟨kind, cs⟩ := s
  cases kind with
  | code =>
    rw [respell_code h, respellCode_writeChars]
    rfl
  | quoted q => rw [respell_quoted, Section.items, List.flatMap_map, writeChars]

end Mark

/-- A text in a style has the items of its sections. -/
theorem styled_eq {style : Style} (h : style ≠ .numeric) (text : String) :
    styled text style = (sectionsOf text).map fun sections =>
      String.ofList ((sections.flatMap Section.items).flatMap style.write) := by
  have hstyled : styled text style = (sectionsOf text).map fun sections =>
      String.ofList (sections.flatMap (Mark.respell style)) := by
    cases style with
    | numeric => exact absurd rfl h
    | question | percent => rfl
  have hwritten : ∀ sections : List Section, sections.flatMap (Mark.respell style) =
      (sections.flatMap Section.items).flatMap style.write := by
    intro sections
    rw [List.flatMap_assoc]
    exact List.flatMap_congr fun s _ => Mark.respell_eq h s
  simp only [hstyled, hwritten]

/-! ### Reading back -/

theorem readPercent_cons_of_ne {c : Char} (h : c ≠ '%') (cs : List Char) :
    readPercent (c :: cs) = (readPercent cs).map (.char c :: ·) := by
  rw [readPercent, if_neg h]
  · intro rest hc
    exact absurd hc h
  · intro rest hc
    exact absurd hc h

/-- The percent style is read as it is written, whatever the items. -/
theorem readPercent_write (items : List Item) : readPercent (items.flatMap (Style.write .percent)) = some items := by
  induction items with
  | nil => rfl
  | cons item items ih =>
    cases item with
    | place =>
      show readPercent ('%' :: 's' :: items.flatMap (Style.write .percent)) = _
      rw [readPercent, ih, Option.map_some]
    | char c =>
      by_cases hc : c = '%'
      · subst hc
        show readPercent ('%' :: '%' :: items.flatMap (Style.write .percent)) = _
        rw [readPercent, ih, Option.map_some]
      · rw [List.flatMap_cons, Style.write, if_neg hc, List.singleton_append, readPercent_cons_of_ne hc, ih,
          Option.map_some]

end RecordSql
