import Mathlib.Order.BoundedOrder.Lattice
import RecordSql.Proofs.Sql.Listing
import RecordSql.Text.Blank

/-!
# Reading conditions

A condition text is read with the usual precedence: parentheses first, then AND, then OR. The text is cut into quoted
sections, words and single characters, and a scan puts the pieces together: a parenthesis opens a group where no operand
has begun and belongs to the operand else, as that of a list of values does, and what stands between two connectives
without being a group is an atom.

* `Formula`: what a text is read to, and its truth under an assignment to the occurrences of its atoms.
* `read`: the scan.
* `reads_render`: a formula written in parentheses is read to its own truth, atom by atom, if its texts are atomic.
-/

namespace RecordSql

open Text (isBlank trim)

/-! ### Formulas -/

/-- Texts under AND and OR. -/
inductive Formula
  | atom (text : String)
  | allOf (items : List Formula)
  | anyOf (items : List Formula)

namespace Formula

mutual

/-- The texts of the atoms, from left to right. -/
def atoms : Formula → List String
  | .atom text => [text]
  | .allOf items | .anyOf items => atomsAll items

def atomsAll : List Formula → List String
  | [] => []
  | f :: fs => atoms f ++ atomsAll fs

end

section Truth

variable {T : Type} [Lattice T] [BoundedOrder T] (σ : Nat → T)

mutual

/-- The truth of a formula whose atoms are the occurrences from `next` on, under an assignment to occurrences. -/
def truth (next : Nat) : Formula → T
  | .atom _ => σ next
  | .allOf items => meet next items
  | .anyOf items => join next items

def meet (next : Nat) : List Formula → T
  | [] => ⊤
  | f :: fs => truth next f ⊓ meet (next + f.atoms.length) fs

def join (next : Nat) : List Formula → T
  | [] => ⊥
  | f :: fs => truth next f ⊔ join (next + f.atoms.length) fs

end

end Truth

mutual

/-- The formula as text: every group in parentheses. -/
def render : Formula → String
  | .atom text => text
  | .allOf items => "(" ++ String.intercalate " AND " (renderAll items) ++ ")"
  | .anyOf items => "(" ++ String.intercalate " OR " (renderAll items) ++ ")"

def renderAll : List Formula → List String
  | [] => []
  | f :: fs => render f :: renderAll fs

end

mutual

/-- No group is empty, and all texts have a property. -/
def Filled (P : String → Prop) : Formula → Prop
  | .atom text => P text
  | .allOf items | .anyOf items => items ≠ [] ∧ FilledAll P items

def FilledAll (P : String → Prop) : List Formula → Prop
  | [] => True
  | f :: fs => Filled P f ∧ FilledAll P fs

end

theorem renderAll_eq_map (fs : List Formula) : renderAll fs = fs.map render := by
  induction fs with
  | nil => rfl
  | cons f fs ih => rw [renderAll, ih, List.map_cons]

theorem atomsAll_eq_flatMap (fs : List Formula) : atomsAll fs = fs.flatMap atoms := by
  induction fs with
  | nil => rfl
  | cons f fs ih => rw [atomsAll, ih, List.flatMap_cons]

theorem filledAll_iff {P : String → Prop} {fs : List Formula} : FilledAll P fs ↔ ∀ f ∈ fs, f.Filled P := by
  induction fs with
  | nil => exact iff_of_true trivial (by simp)
  | cons f fs ih => rw [FilledAll, ih, List.forall_mem_cons]

mutual

theorem Filled.mono {P Q : String → Prop} (hPQ : ∀ t, P t → Q t) : ∀ {f : Formula}, f.Filled P → f.Filled Q
  | .atom text, h => hPQ text h
  | .allOf _, ⟨hne, h⟩ | .anyOf _, ⟨hne, h⟩ => ⟨hne, FilledAll.mono hPQ h⟩

theorem FilledAll.mono {P Q : String → Prop} (hPQ : ∀ t, P t → Q t) : ∀ {fs : List Formula},
    FilledAll P fs → FilledAll Q fs
  | [], _ => trivial
  | _ :: _, ⟨hf, hfs⟩ => ⟨Filled.mono hPQ hf, FilledAll.mono hPQ hfs⟩

end

end Formula

namespace Reading

/-! ### Pieces -/

/-- Whether a character is part of a word: a letter, a digit, an underscore or a dollar sign. -/
def isWordChar (c : Char) : Bool :=
  c.isAlphanum || c == '_' || c == '$' || (decide (0x80 ≤ c.toNat) && !isBlank c)

/-- Whether two characters side by side belong together, if the first leaves a section of the given kind. -/
def joined (k : SectionKind) (c d : Char) : Bool := k != .code || (isWordChar c && isWordChar d)

/-- A character in front of the first piece. -/
def attach (c : Char) : List (List Char) → List (List Char)
  | [] => [[c]]
  | p :: ps => (c :: p) :: ps

/-- A text cut into quoted sections, words and single characters. -/
def pieces (k : SectionKind) : List Char → List (List Char)
  | [] => []
  | c :: rest =>
    if rest.head?.any (joined (k.step c) c) then attach c (pieces (k.step c) rest)
    else [c] :: pieces (k.step c) rest

/-- The pieces of a text that begins in code. -/
def cut (text : String) : List (List Char) := pieces .code text.toList

section Pieces

variable {k : SectionKind} {a b : List Char}

theorem flatten_attach (c : Char) (ps : List (List Char)) : (attach c ps).flatten = c :: ps.flatten := by
  cases ps <;> rfl

theorem flatten_pieces (k : SectionKind) (cs : List Char) : (pieces k cs).flatten = cs := by
  induction cs generalizing k with
  | nil => rfl
  | cons c cs ih =>
    rw [pieces]
    split
    · rw [flatten_attach, ih]
    · rw [List.flatten_cons, ih, List.singleton_append]

theorem pieces_ne_nil (k : SectionKind) (c : Char) (cs : List Char) : pieces k (c :: cs) ≠ [] := by
  rw [pieces]
  split
  · cases pieces (k.step c) cs <;> exact List.cons_ne_nil _ _
  · exact List.cons_ne_nil _ _

theorem pieces_cons_cons (k : SectionKind) (c d : Char) (cs : List Char) : pieces k (c :: d :: cs) =
    if joined (k.step c) c d then attach c (pieces (k.step c) (d :: cs)) else [c] :: pieces (k.step c) (d :: cs) := by
  rw [pieces, List.head?_cons, Option.any_some]

/-- Texts are cut one after the other if the characters at the seam do not belong together. -/
theorem pieces_append (h : ∀ c ∈ a.getLast?, ∀ d ∈ b.head?, joined (k.after a) c d = false) :
    pieces k (a ++ b) = pieces k a ++ pieces (k.after a) b := by
  induction a generalizing k with
  | nil => rfl
  | cons c a ih =>
    cases a with
    | nil =>
      have hseam : b.head?.any (joined (k.step c) c) = false := by
        cases hb : b.head? with
        | none => rfl
        | some d => exact h c rfl d hb
      rw [List.singleton_append, pieces, hseam]
      rfl
    | cons c' a =>
      have hrest := ih (k := k.step c) (by simpa using h)
      rw [List.cons_append] at hrest
      rw [List.cons_append, List.cons_append, pieces_cons_cons, pieces_cons_cons, hrest, SectionKind.after_cons k]
      split
      · cases hp : pieces (k.step c) (c' :: a) with
        | nil => exact absurd hp (pieces_ne_nil _ _ _)
        | cons p ps => rfl
      · rfl

end Pieces

section Cut

variable {a b : String}

/-- A closed text in front of one that does not begin with a word character. -/
theorem cut_append_of_head (ha : Closed a) (h : b.toList.head?.any isWordChar = false) :
    cut (a ++ b) = cut a ++ cut b := by
  have hafter : SectionKind.code.after a.toList = .code := ha
  rw [cut, String.toList_append, pieces_append, hafter]
  · rfl
  · intro c _ d hd
    rw [Option.mem_def.1 hd, Option.any_some] at h
    simp [joined, hafter, h]

/-- A closed text that does not end with a word character in front of another. -/
theorem cut_append_of_last (ha : Closed a) (h : a.toList.getLast?.any isWordChar = false) :
    cut (a ++ b) = cut a ++ cut b := by
  have hafter : SectionKind.code.after a.toList = .code := ha
  rw [cut, String.toList_append, pieces_append, hafter]
  · rfl
  · intro c hc d _
    rw [Option.mem_def.1 hc, Option.any_some] at h
    simp [joined, hafter, h]

/-- A closed text in parentheses. -/
theorem cut_parens (ha : Closed a) : cut ("(" ++ a ++ ")") = ['('] :: (cut a ++ [[')']]) := by
  have hopen : Closed "(" := by decide
  rw [cut_append_of_head (hopen.append ha) (by decide), cut_append_of_last hopen (by decide)]
  rfl

theorem flatten_cut (text : String) : (cut text).flatten = text.toList := flatten_pieces _ _

end Cut

/-! ### Tokens -/

inductive Connective
  | and
  | or
  deriving DecidableEq

namespace Connective

def word : Connective → String
  | .and => "AND"
  | .or => "OR"

/-- The connective that a piece is, in capital letters or in letters of any case. -/
def ofPiece? (anyCase : Bool) (piece : List Char) : Option Connective :=
  [and, or].find? fun k => decide ((if anyCase then piece.map Char.toUpper else piece) = k.word.toList)

end Connective

inductive Token
  | opening
  | closing
  | connective (k : Connective)
  | other
  deriving DecidableEq

def Token.ofPiece (anyCase : Bool) (piece : List Char) : Token :=
  if piece = ['('] then .opening
  else if piece = [')'] then .closing
  else (Connective.ofPiece? anyCase piece).elim .other .connective

/-- A piece with a character that is no letter and no parenthesis has no meaning. -/
theorem Token.ofPiece_of_mem (anyCase : Bool) {piece : List Char} {c : Char}
    (hc : c.isAlpha = false ∧ c.toUpper.isAlpha = false ∧ c ≠ '(' ∧ c ≠ ')') (h : c ∈ piece) :
    Token.ofPiece anyCase piece = .other := by
  obtain ⟨hletter, hupper, hopening, hclosing⟩ := hc
  have hletters : ∀ k : Connective, ∀ d ∈ k.word.toList, d.isAlpha = true := by
    intro k
    rw [← List.all_eq_true]
    cases k <;> rfl
  have hword : ∀ k : Connective, ¬ (if anyCase then piece.map Char.toUpper else piece) = k.word.toList := by
    intro k hk
    split at hk
    · have hmem := hletters k c.toUpper (hk ▸ List.mem_map_of_mem h)
      rw [hupper] at hmem
      cases hmem
    · have hmem := hletters k c (hk ▸ h)
      rw [hletter] at hmem
      cases hmem
  have hnone : Connective.ofPiece? anyCase piece = none := by simp [Connective.ofPiece?, hword]
  rw [Token.ofPiece, if_neg, if_neg, hnone]
  · rfl
  · rintro rfl
    exact hclosing (List.mem_singleton.1 h)
  · rintro rfl
    exact hopening (List.mem_singleton.1 h)

/-! ### The scan -/

/-- What stands between two connectives: a text with open parentheses in it, or a group. -/
inductive Operand
  | text (chars : List Char) (depth : Nat)
  | group (f : Formula)

namespace Operand

def formula : Operand → Formula
  | .text cs _ => .atom (String.ofList (trim cs))
  | .group f => f

def depth : Operand → Nat
  | .text _ depth => depth
  | .group _ => 0

end Operand

/-- What has been read of a group: the finished operands of OR, and those of the AND that is being read. -/
structure Frame where
  terms : List Formula
  factors : List Formula

namespace Frame

/-- An operand and the connective behind it. -/
def push (k : Connective) (frame : Frame) (f : Formula) : Frame :=
  match k with
  | .and => { frame with factors := frame.factors ++ [f] }
  | .or => ⟨frame.terms ++ [.allOf (frame.factors ++ [f])], []⟩

/-- The group with its last operand. -/
def close (frame : Frame) (last : Formula) : Formula := .anyOf (frame.terms ++ [.allOf (frame.factors ++ [last])])

end Frame

/-- The groups around the one that is being read, from the inside, that one, and its operand. -/
structure Scan where
  outer : List Frame
  frame : Frame
  operand : Operand

namespace Scan

def start : Scan := ⟨[], ⟨[], []⟩, .text [] 0⟩

def push (s : Scan) (k : Connective) : Scan := ⟨s.outer, s.frame.push k s.operand.formula, .text [] 0⟩

def close (s : Scan) : Option Scan :=
  match s.outer with
  | [] => none
  | frame :: outer => some ⟨outer, frame, .group (s.frame.close s.operand.formula)⟩

/-- One piece. -/
def step (anyCase : Bool) (s : Scan) (piece : List Char) : Option Scan :=
  match s.operand, Token.ofPiece anyCase piece with
  | .text cs 0, .opening =>
    -- only where no operand has begun does a group begin
    if cs.all isBlank then some ⟨s.frame :: s.outer, ⟨[], []⟩, .text [] 0⟩
    else some { s with operand := .text (cs ++ piece) 1 }
  | .text cs (depth + 1), .opening => some { s with operand := .text (cs ++ piece) (depth + 2) }
  | .text cs (depth + 1), .closing => some { s with operand := .text (cs ++ piece) depth }
  | .text cs (depth + 1), .connective _ => some { s with operand := .text (cs ++ piece) (depth + 1) }
  | .text cs depth, .other => some { s with operand := .text (cs ++ piece) depth }
  | .group _, .opening => none
  | .group _, .other => if piece.all isBlank then some s else none
  | _, .closing => s.close
  | _, .connective k => some (s.push k)

def run (anyCase : Bool) (s : Scan) (pieces : List (List Char)) : Option Scan := pieces.foldlM (step anyCase) s

end Scan

/-! ### Atomic texts -/

section Atomic

variable {anyCase : Bool} {a b text : String}

/-- A closed text without parentheses and connectives in its code. -/
def Bare (anyCase : Bool) (text : String) : Prop :=
  Closed text ∧ ∀ p ∈ cut text, Token.ofPiece anyCase p = .other

instance (anyCase : Bool) (text : String) : Decidable (Bare anyCase text) :=
  inferInstanceAs (Decidable (_ ∧ _))

/-- A text of a kind, or two of them, the first not blank and the second in parentheses. -/
def Atomic (P : String → Prop) (text : String) : Prop :=
  P text ∨ ∃ head inside, text = head ++ "(" ++ inside ++ ")" ∧ P head ∧ head.toList.all isBlank = false ∧ P inside

theorem Bare.append (ha : Bare anyCase a) (hb : Bare anyCase b)
    (h : a.toList.getLast?.any isWordChar = false ∨ b.toList.head?.any isWordChar = false) :
    Bare anyCase (a ++ b) := by
  have hcut : cut (a ++ b) = cut a ++ cut b := by
    rcases h with h | h
    · exact cut_append_of_last ha.1 h
    · exact cut_append_of_head ha.1 h
  refine ⟨ha.1.append hb.1, ?_⟩
  rw [hcut, List.forall_mem_append]
  exact ⟨ha.2, hb.2⟩

section Names

variable {k : SectionKind} {q : Quote} {c : Char} {rest : List Char}

/-- A character that leaves a quoted section open belongs to the piece behind it. -/
theorem pieces_quoted (hk : k.step c = .quoted q) (hne : rest ≠ []) :
    pieces k (c :: rest) = attach c (pieces (.quoted q) rest) := by
  obtain ⟨d, rest, rfl⟩ := List.exists_cons_of_ne_nil hne
  rw [pieces_cons_cons, hk]
  exact if_pos rfl

theorem mem_attach {x : Char} {ps : List (List Char)} (hne : ps ≠ []) (h : ∀ p ∈ ps, x ∈ p) :
    ∀ p ∈ attach c ps, x ∈ p := by
  obtain ⟨p, ps, rfl⟩ := List.exists_cons_of_ne_nil hne
  rw [List.forall_mem_cons] at h
  rw [attach, List.forall_mem_cons]
  exact ⟨List.mem_cons_of_mem c h.1, h.2⟩

/-- Every piece of a quoted name has a quote. -/
theorem quote_mem_pieces (cs : List Char) :
    ∀ p ∈ pieces (.quoted .name) (doubleQuotes cs ++ ['\x22']), '\x22' ∈ p := by
  have hopen : SectionKind.step .code '\x22' = .quoted .name := SectionKind.step_quote .name
  have hclose : SectionKind.step (.quoted .name) '\x22' = .code := rfl
  induction cs with
  | nil => exact fun p hp => by rw [List.mem_singleton.1 hp]; exact List.mem_singleton_self _
  | cons c cs ih =>
    have hrest : doubleQuotes cs ++ ['\x22'] ≠ [] := by simp
    have hpieces : pieces (.quoted .name) (doubleQuotes cs ++ ['\x22']) ≠ [] := by
      obtain ⟨d, rest, hd⟩ := List.exists_cons_of_ne_nil hrest
      exact hd ▸ pieces_ne_nil _ _ _
    rw [doubleQuotes, List.flatMap_cons, ← doubleQuotes, List.append_assoc]
    by_cases hc : c = '\x22'
    · -- the first of two quotes ends a piece, and the second begins another
      have hsplit : pieces (.quoted .name) ('\x22' :: '\x22' :: (doubleQuotes cs ++ ['\x22'])) =
          ['\x22'] :: attach '\x22' (pieces (.quoted .name) (doubleQuotes cs ++ ['\x22'])) := by
        rw [pieces_cons_cons, hclose, ← pieces_quoted hopen hrest]
        rfl
      rw [if_pos hc, List.cons_append, List.singleton_append, hsplit, List.forall_mem_cons]
      exact ⟨List.mem_singleton_self _, mem_attach hpieces ih⟩
    · have hstay : SectionKind.step (.quoted .name) c = .quoted .name := if_neg hc
      rw [if_neg hc, List.singleton_append, pieces_quoted hstay hrest]
      exact mem_attach hpieces ih

end Names

theorem bare_quoteName (anyCase : Bool) (name : String) : Bare anyCase (quoteName name) := by
  refine ⟨(markFree_quoteName name).1, fun p hp => Token.ofPiece_of_mem anyCase (by decide) ?_ (c := '\x22')⟩
  have hopen : SectionKind.step .code '\x22' = .quoted .name := SectionKind.step_quote .name
  rw [cut, quoteName, String.toList_ofList, pieces_quoted hopen (by simp)] at hp
  obtain ⟨d, rest, hd⟩ := List.exists_cons_of_ne_nil (show doubleQuotes name.toList ++ ['\x22'] ≠ [] by simp)
  exact mem_attach (hd ▸ pieces_ne_nil _ _ _) (quote_mem_pieces _) p hp

theorem bare_qualify (anyCase : Bool) (table column : String) : Bare anyCase (qualify table column) := by
  have hdot : Bare anyCase "." := by cases anyCase <;> decide
  exact ((bare_quoteName anyCase table).append hdot (.inr (by decide))).append (bare_quoteName anyCase column)
    (.inl (by simp [String.toList_append]; decide))

theorem Atomic.closed (h : Atomic (Bare anyCase) text) : Closed text := by
  rcases h with h | ⟨head, inside, rfl, hhead, -, hinside⟩
  · exact h.1
  · exact ((hhead.1.append (by decide)).append hinside.1).append (by decide)

end Atomic

theorem trim_blank_append {blanks cs : List Char} (h : blanks.all isBlank = true) : trim (blanks ++ cs) = trim cs := by
  rw [trim, Text.dropEnds, List.dropWhile_append_of_pos (List.all_eq_true.1 h)]
  rfl

theorem trim_append_blank {c : Char} (h : isBlank c = true) (cs : List Char) : trim (cs ++ [c]) = trim cs := by
  rw [trim, trim, Text.dropEnds, Text.dropEnds, List.dropWhile_append]
  split
  · rename_i hnil
    rw [List.isEmpty_iff.1 hnil]
    simp [h]
  · rw [List.reverse_append, List.reverse_singleton, List.singleton_append, List.dropWhile_cons_of_pos h]

/-! ### Runs of the scan -/

namespace Scan

variable {anyCase : Bool} {outer : List Frame} {frame : Frame} {operand : Operand} {k : Connective}

theorem run_cons (s : Scan) (p : List Char) (ps : List (List Char)) :
    s.run anyCase (p :: ps) = (s.step anyCase p).bind (·.run anyCase ps) := List.foldlM_cons

theorem run_append (s : Scan) (ps qs : List (List Char)) :
    s.run anyCase (ps ++ qs) = (s.run anyCase ps).bind (·.run anyCase qs) := List.foldlM_append

/-- Pieces of no meaning go to the operand. -/
theorem run_other {ps : List (List Char)} (h : ∀ p ∈ ps, Token.ofPiece anyCase p = .other) (cs : List Char)
    (depth : Nat) :
    run anyCase ⟨outer, frame, .text cs depth⟩ ps = some ⟨outer, frame, .text (cs ++ ps.flatten) depth⟩ := by
  induction ps generalizing cs with
  | nil => rw [List.flatten_nil, List.append_nil]; rfl
  | cons p ps ih =>
    obtain ⟨hp, hps⟩ := List.forall_mem_cons.1 h
    have hstep : step anyCase ⟨outer, frame, .text cs depth⟩ p = some ⟨outer, frame, .text (cs ++ p) depth⟩ := by
      cases depth <;> simp [step, hp]
    rw [run_cons, hstep, Option.bind_some, ih hps, List.flatten_cons, List.append_assoc]

/-- An atomic text becomes the operand. -/
theorem run_atomic {text : String} (h : Atomic (Bare anyCase) text) (cs : List Char) :
    run anyCase ⟨outer, frame, .text cs 0⟩ (cut text) = some ⟨outer, frame, .text (cs ++ text.toList) 0⟩ := by
  rcases h with h | ⟨head, inside, rfl, hhead, hblank, hinside⟩
  · rw [run_other h.2, flatten_cut]
  · -- the head has begun the operand, so the parenthesis behind it belongs to that
    have hnonblank : (cs ++ head.toList).all isBlank = false := by rw [List.all_append, hblank, Bool.and_false]
    have hopen : step anyCase ⟨outer, frame, .text (cs ++ head.toList) 0⟩ ['('] =
        some ⟨outer, frame, .text (cs ++ head.toList ++ ['(']) 1⟩ := by
      simp only [step, Token.ofPiece, if_true, hnonblank]
      rfl
    have hassoc : head ++ "(" ++ inside ++ ")" = head ++ ("(" ++ inside ++ ")") := by simp only [String.append_assoc]
    have hhead' : ("(" ++ inside ++ ")").toList.head?.any isWordChar = false := by
      rw [String.append_assoc, String.toList_append]
      rfl
    rw [hassoc, cut_append_of_head hhead.1 hhead', cut_parens hinside.1, run_append, run_other hhead.2,
      Option.bind_some, flatten_cut, run_cons, hopen, Option.bind_some, run_append, run_other hinside.2,
      Option.bind_some, flatten_cut]
    simp only [String.toList_append, ← List.append_assoc]
    rfl

/-- A blank leaves a finished operand as it is. -/
theorem step_blank (h : operand.depth = 0) : ∃ operand', operand'.depth = 0 ∧ operand'.formula = operand.formula ∧
    step anyCase ⟨outer, frame, operand⟩ [' '] = some ⟨outer, frame, operand'⟩ := by
  have hblank : Token.ofPiece anyCase [' '] = .other := by cases anyCase <;> rfl
  cases operand with
  | text cs depth =>
    obtain rfl : depth = 0 := h
    refine ⟨.text (cs ++ [' ']) 0, rfl, ?_, by simp only [step, hblank]⟩
    rw [Operand.formula, Operand.formula, trim_append_blank (by decide)]
  | group f => exact ⟨.group f, rfl, rfl, by simp only [step, hblank]; rfl⟩

/-- A connective between blanks takes the operand before it. -/
theorem run_connective (h : operand.depth = 0) :
    run anyCase ⟨outer, frame, operand⟩ (cut (" " ++ k.word ++ " ")) =
      some ⟨outer, frame.push k operand.formula, .text [' '] 0⟩ := by
  have hcut : cut (" " ++ k.word ++ " ") = [[' '], k.word.toList, [' ']] := by cases k <;> rfl
  have hblank : Token.ofPiece anyCase [' '] = .other := by cases anyCase <;> rfl
  have hword : Token.ofPiece anyCase k.word.toList = .connective k := by cases anyCase <;> cases k <;> rfl
  obtain ⟨operand', hdepth, hformula, hstep⟩ := @step_blank anyCase outer frame operand h
  have hpush : step anyCase ⟨outer, frame, operand'⟩ k.word.toList =
      some ⟨outer, frame.push k operand.formula, .text [] 0⟩ := by
    rw [← hformula]
    cases operand' with
    | text cs depth =>
      obtain rfl : depth = 0 := hdepth
      simp only [step, hword]
      rfl
    | group f =>
      simp only [step, hword]
      rfl
  have hlast : step anyCase ⟨outer, frame.push k operand.formula, .text [] 0⟩ [' '] =
      some ⟨outer, frame.push k operand.formula, .text [' '] 0⟩ := by
    simp only [step, hblank]
    rfl
  rw [hcut, run_cons, hstep, Option.bind_some, run_cons, hpush, Option.bind_some, run_cons, hlast]
  rfl

theorem step_closing {around : Frame} (h : operand.depth = 0) :
    step anyCase ⟨around :: outer, frame, operand⟩ [')'] =
      some ⟨outer, around, .group (frame.close operand.formula)⟩ := by
  have hclosing : Token.ofPiece anyCase [')'] = .closing := rfl
  cases operand with
  | text cs depth =>
    obtain rfl : depth = 0 := h
    simp only [step, hclosing]
    rfl
  | group f =>
    simp only [step, hclosing]
    rfl

/-- What stands in parentheses, where no operand has begun, is read to a group. -/
theorem run_parens {inside : String} {blanks : List Char} {frame' : Frame} (hblanks : blanks.all isBlank = true)
    (hclosed : Closed inside)
    (hrun : run anyCase ⟨frame :: outer, ⟨[], []⟩, .text [] 0⟩ (cut inside) = some ⟨frame :: outer, frame', operand⟩)
    (h : operand.depth = 0) : run anyCase ⟨outer, frame, .text blanks 0⟩ (cut ("(" ++ inside ++ ")")) =
      some ⟨outer, frame, .group (frame'.close operand.formula)⟩ := by
  have hopen : step anyCase ⟨outer, frame, .text blanks 0⟩ ['('] = some ⟨frame :: outer, ⟨[], []⟩, .text [] 0⟩ := by
    have hopening : Token.ofPiece anyCase ['('] = .opening := rfl
    simp only [step, hopening, hblanks]
    rfl
  rw [cut_parens hclosed, run_cons, hopen, Option.bind_some, run_append, hrun, Option.bind_some, run_cons,
    step_closing h]
  rfl

end Scan

/-! ### Formulas in parentheses -/

/-- A text without the blanks at its ends. -/
def unpadded (text : String) : String := String.ofList (trim text.toList)

mutual

/-- What a formula is read to: a group is one of OR, whose operands are groups of AND. -/
def readBack : Formula → Formula
  | .atom text => .atom (unpadded text)
  | .allOf items => .anyOf [.allOf (readBackAll items)]
  | .anyOf items => .anyOf ((readBackAll items).map fun f => .allOf [f])

def readBackAll : List Formula → List Formula
  | [] => []
  | f :: fs => readBack f :: readBackAll fs

end

namespace Frame

/-- The group after operands with one connective between them. -/
def closeAll (k : Connective) (frame : Frame) : List Formula → Formula
  | [] => .anyOf frame.terms
  | [f] => frame.close f
  | f :: g :: fs => (frame.push k f).closeAll k (g :: fs)

theorem closeAll_and (frame : Frame) (f : Formula) (fs : List Formula) :
    frame.closeAll .and (f :: fs) = .anyOf (frame.terms ++ [.allOf (frame.factors ++ f :: fs)]) := by
  induction fs generalizing frame f with
  | nil => rfl
  | cons g fs ih =>
    rw [closeAll, ih]
    simp [push]

theorem closeAll_or (terms : List Formula) (f : Formula) (fs : List Formula) :
    closeAll .or ⟨terms, []⟩ (f :: fs) = .anyOf (terms ++ (f :: fs).map fun g => .allOf [g]) := by
  induction fs generalizing terms f with
  | nil => rfl
  | cons g fs ih =>
    rw [closeAll]
    refine (ih _ g).trans ?_
    simp

end Frame

section Render

open Scan

variable {anyCase : Bool}

mutual

/-- What holds of the texts of a formula, and of groups of what it holds of, holds of the formula as text. -/
theorem render_of {P Q : String → Prop} (hP : ∀ t, P t → Q t) (hgroup : ∀ s ∈ [" AND ", " OR "], ∀ texts : List String,
    (∀ t ∈ texts, Q t) → Q ("(" ++ s.intercalate texts ++ ")")) : ∀ f : Formula, f.Filled P → Q f.render
  | .atom text, h => hP text h
  | .allOf items, ⟨_, h⟩ => hgroup _ List.mem_cons_self _ (renderAll_of hP hgroup items h)
  | .anyOf items, ⟨_, h⟩ => hgroup _ (List.mem_cons_of_mem _ List.mem_cons_self) _ (renderAll_of hP hgroup items h)

theorem renderAll_of {P Q : String → Prop} (hP : ∀ t, P t → Q t) (hgroup : ∀ s ∈ [" AND ", " OR "],
    ∀ texts : List String, (∀ t ∈ texts, Q t) → Q ("(" ++ s.intercalate texts ++ ")")) :
    ∀ fs : List Formula, Formula.FilledAll P fs → ∀ t ∈ Formula.renderAll fs, Q t
  | [], _, _, ht => absurd ht List.not_mem_nil
  | f :: fs, ⟨hf, hfs⟩, t, ht => by
    rcases List.mem_cons.1 ht with rfl | ht
    · exact render_of hP hgroup f hf
    · exact renderAll_of hP hgroup fs hfs t ht

end

section Closed

variable {P : String → Prop} (hP : ∀ t, P t → Closed t)

theorem closed_group {texts : List String} : ∀ s ∈ [" AND ", " OR "], (∀ t ∈ texts, Closed t) →
    Closed ("(" ++ s.intercalate texts ++ ")") := by
  have hfree : ∀ s ∈ [" AND ", " OR "], MarkFree s := by decide
  exact fun s hs h => (Closed.intercalate (hfree s hs) h).parens

include hP

theorem closed_render (f : Formula) (h : f.Filled P) : Closed f.render :=
  render_of hP (fun s hs _ => closed_group s hs) f h

theorem closed_renderAll (fs : List Formula) (h : Formula.FilledAll P fs) : ∀ t ∈ Formula.renderAll fs, Closed t :=
  renderAll_of hP (fun s hs _ => closed_group s hs) fs h

end Closed

mutual

/-- A formula is read to an operand, whatever groups are around it. -/
theorem run_render : ∀ f : Formula, f.Filled (Atomic (Bare anyCase)) → ∀ (outer : List Frame) (frame : Frame)
    (blanks : List Char), blanks.all isBlank = true → ∃ operand : Operand, operand.depth = 0 ∧
      operand.formula = readBack f ∧
      run anyCase ⟨outer, frame, .text blanks 0⟩ (cut f.render) = some ⟨outer, frame, operand⟩
  | .atom text, h, outer, frame, blanks, hblanks => by
    refine ⟨_, rfl, ?_, run_atomic h blanks⟩
    rw [Operand.formula, trim_blank_append hblanks]
    rfl
  | .allOf items, ⟨hne, h⟩, outer, frame, blanks, hblanks => by
    obtain ⟨frame', last, hlast, hclose, hrun⟩ := run_renderAll items hne h .and (frame :: outer) ⟨[], []⟩ [] rfl
    have hclosed := Closed.intercalate (show MarkFree " AND " by decide)
      (closed_renderAll (fun _ => Atomic.closed) items h)
    refine ⟨.group (frame'.close last.formula), rfl, ?_, run_parens hblanks hclosed hrun hlast⟩
    obtain ⟨f, fs, rfl⟩ := List.exists_cons_of_ne_nil hne
    exact hclose.trans (Frame.closeAll_and _ _ _)
  | .anyOf items, ⟨hne, h⟩, outer, frame, blanks, hblanks => by
    obtain ⟨frame', last, hlast, hclose, hrun⟩ := run_renderAll items hne h .or (frame :: outer) ⟨[], []⟩ [] rfl
    have hclosed := Closed.intercalate (show MarkFree " OR " by decide)
      (closed_renderAll (fun _ => Atomic.closed) items h)
    refine ⟨.group (frame'.close last.formula), rfl, ?_, run_parens hblanks hclosed hrun hlast⟩
    obtain ⟨f, fs, rfl⟩ := List.exists_cons_of_ne_nil hne
    exact hclose.trans (Frame.closeAll_or _ _ _)

/-- Formulas with a connective between them are read to operands of the group. -/
theorem run_renderAll : ∀ fs : List Formula, fs ≠ [] → Formula.FilledAll (Atomic (Bare anyCase)) fs → ∀ (k : Connective)
    (outer : List Frame) (frame : Frame) (blanks : List Char), blanks.all isBlank = true →
      ∃ (frame' : Frame) (operand : Operand), operand.depth = 0 ∧
      frame'.close operand.formula = frame.closeAll k (readBackAll fs) ∧
      run anyCase ⟨outer, frame, .text blanks 0⟩
        (cut (String.intercalate (" " ++ k.word ++ " ") (Formula.renderAll fs))) = some ⟨outer, frame', operand⟩
  | [], hne, _, _, _, _, _, _ => absurd rfl hne
  | [f], _, ⟨hf, _⟩, k, outer, frame, blanks, hblanks => by
    obtain ⟨operand, hdepth, hformula, hrun⟩ := run_render f hf outer frame blanks hblanks
    refine ⟨frame, operand, hdepth, by rw [hformula]; rfl, ?_⟩
    rw [Formula.renderAll, Formula.renderAll, String.intercalate_singleton, hrun]
  | f :: g :: fs, _, ⟨hf, hfs⟩, k, outer, frame, blanks, hblanks => by
    obtain ⟨operand, hdepth, hformula, hrun⟩ := run_render f hf outer frame blanks hblanks
    obtain ⟨frame', last, hlast, hclose, hrest⟩ := run_renderAll (g :: fs) (List.cons_ne_nil _ _) hfs k outer
      (frame.push k operand.formula) [' '] rfl
    refine ⟨frame', last, hlast, by rw [hclose, hformula]; rfl, ?_⟩
    -- blanks are cut off from what is around them, so the text is cut before the connective and behind it
    have hclosed := closed_render (fun _ => Atomic.closed) f hf
    have hseparator : Closed (" " ++ k.word ++ " ") := by cases k <;> decide
    have hhead : (" " ++ k.word ++ " ").toList.head?.any isWordChar = false := by cases k <;> decide
    have hend : (f.render ++ (" " ++ k.word ++ " ")).toList.getLast?.any isWordChar = false := by
      cases k <;> simp [Connective.word] <;> decide
    rw [Formula.renderAll, Formula.renderAll, String.intercalate_cons_cons,
      cut_append_of_last (hclosed.append hseparator) hend, cut_append_of_head hclosed hhead, List.append_assoc,
      run_append, hrun, Option.bind_some, run_append, run_connective hdepth, Option.bind_some]
    exact hrest

end

end Render

/-- The formula of a text, if its parentheses match. -/
def read (anyCase : Bool) (text : String) : Option Formula :=
  match Scan.start.run anyCase (cut text) with
  | some ⟨[], frame, operand⟩ => if operand.depth = 0 then some (frame.close operand.formula) else none
  | _ => none

/-! ### Truth of what is read -/

theorem atomsAll_map_allOf (fs : List Formula) :
    Formula.atomsAll (fs.map fun f => .allOf [f]) = Formula.atomsAll fs := by
  simp [Formula.atomsAll_eq_flatMap, List.flatMap_map, Formula.atoms]

mutual

theorem atoms_readBack : ∀ f : Formula, (readBack f).atoms = f.atoms.map unpadded
  | .atom _ => rfl
  | .allOf items => by
    have hgroup : (readBack (.allOf items)).atoms = Formula.atomsAll (readBackAll items) := List.append_nil _
    rw [hgroup, atoms_readBackAll items, Formula.atoms]
  | .anyOf items => by
    rw [readBack, Formula.atoms, atomsAll_map_allOf, atoms_readBackAll items, Formula.atoms]

theorem atoms_readBackAll : ∀ fs : List Formula,
    Formula.atomsAll (readBackAll fs) = (Formula.atomsAll fs).map unpadded
  | [] => rfl
  | f :: fs => by
    rw [readBackAll, Formula.atomsAll, Formula.atomsAll, atoms_readBack f, atoms_readBackAll fs, List.map_append]

end

section Truth

variable {T : Type} [Lattice T] [BoundedOrder T] (σ : Nat → T)

theorem join_map_allOf (next : Nat) (fs : List Formula) :
    Formula.join σ next (fs.map fun f => .allOf [f]) = Formula.join σ next fs := by
  induction fs generalizing next with
  | nil => rfl
  | cons f fs ih =>
    simp [Formula.join, Formula.truth, Formula.meet, Formula.atoms, Formula.atomsAll, ih]

mutual

theorem truth_readBack : ∀ (f : Formula) (next : Nat), (readBack f).truth σ next = f.truth σ next
  | .atom _, _ => rfl
  | .allOf items, next => by
    have hgroup : (readBack (.allOf items)).truth σ next = Formula.meet σ next (readBackAll items) := sup_bot_eq _
    rw [hgroup, meet_readBackAll items, Formula.truth]
  | .anyOf items, next => by
    rw [readBack, Formula.truth, join_map_allOf, join_readBackAll items, Formula.truth]

theorem meet_readBackAll : ∀ (fs : List Formula) (next : Nat),
    Formula.meet σ next (readBackAll fs) = Formula.meet σ next fs
  | [], _ => rfl
  | f :: fs, next => by
    rw [readBackAll, Formula.meet, Formula.meet, truth_readBack f, atoms_readBack, List.length_map, meet_readBackAll fs]

theorem join_readBackAll : ∀ (fs : List Formula) (next : Nat),
    Formula.join σ next (readBackAll fs) = Formula.join σ next fs
  | [], _ => rfl
  | f :: fs, next => by
    rw [readBackAll, Formula.join, Formula.join, truth_readBack f, atoms_readBack, List.length_map, join_readBackAll fs]

end

end Truth

/-- A text is read to a formula with given atoms in their order, but for the blanks at their ends, that has the truth of
another, whatever is assigned to the occurrences of the atoms and in whatever lattice of truth values. -/
def Reads (anyCase : Bool) (text : String) (atoms : List String) (f : Formula) : Prop :=
  ∃ g, read anyCase text = some g ∧ g.atoms = atoms.map unpadded ∧
    ∀ {T : Type} [Lattice T] [BoundedOrder T] (σ : Nat → T), g.truth σ 0 = f.truth σ 0

/-- A formula with atomic texts that is written with all groups in parentheses is read to its own truth. -/
theorem reads_render {anyCase : Bool} {f : Formula} (h : f.Filled (Atomic (Bare anyCase))) :
    Reads anyCase f.render f.atoms f := by
  obtain ⟨operand, hdepth, hformula, hrun⟩ := run_render f h [] ⟨[], []⟩ [] rfl
  have hread : read anyCase f.render = some (.anyOf [.allOf [readBack f]]) := by
    have hstart : Scan.start.run anyCase (cut f.render) = some ⟨[], ⟨[], []⟩, operand⟩ := hrun
    unfold read
    rw [hstart]
    simp only [hdepth, if_true, hformula]
    rfl
  refine ⟨_, hread, ?_, fun σ => ?_⟩
  · simp [Formula.atoms, Formula.atomsAll, atoms_readBack]
  · simp [Formula.truth, Formula.join, Formula.meet, truth_readBack]

example : read false "a OR b AND (c OR d)" = some (.anyOf [.allOf [.atom "a"],
    .allOf [.atom "b", .anyOf [.allOf [.atom "c"], .allOf [.atom "d"]]]]) := by rfl

end Reading

end RecordSql
