import RecordSql.Failure

/-!
# Sections of a statement text

A statement text is cut into code, quoted texts and quoted names. A quote inside a quoted section is written twice, and
the section ends at the first quote of its kind that stands alone. `Section.split` gives the sections in order, or the
quote of the section that is never closed.
-/

namespace RecordSql

/-- A single quote opens a text, a double quote a name. -/
inductive Quote
  | text
  | name
  deriving DecidableEq, Repr

namespace Quote

def char : Quote → Char
  | .text => '\x27'
  | .name => '\x22'

def ofChar? (c : Char) : Option Quote :=
  if c = Quote.text.char then some .text
  else if c = Quote.name.char then some .name
  else none

end Quote

inductive SectionKind
  | code
  | quoted (quote : Quote)
  deriving DecidableEq, Repr

def SectionKind.name : SectionKind → String
  | .code => "code"
  | .quoted .text => "string"
  | .quoted .name => "identifier"

/-- A stretch of statement text, its quotes included. -/
structure Section where
  kind : SectionKind
  chars : List Char
  deriving DecidableEq, Repr

namespace Section

/-- Reads a quoted section after its opening quote: the part up to and with the closing quote, and the rest. A quote
followed by another one of its kind does not close. -/
def readQuoted (quote : Char) : List Char → Option (List Char × List Char)
  | [] => none
  | c :: rest =>
    if c = quote then
      match rest with
      | [] => some ([c], [])
      | d :: rest' =>
        if d = quote then (readQuoted quote rest').map fun (body, r) => (c :: d :: body, r)
        else some ([c], d :: rest')
    else (readQuoted quote rest).map fun (body, r) => (c :: body, r)

theorem length_readQuoted {quote : Char} {cs body rest : List Char}
    (h : readQuoted quote cs = some (body, rest)) : rest.length < cs.length := by
  fun_induction readQuoted quote cs generalizing body rest <;> grind [Option.map_eq_some_iff]

/-- Whether a character belongs to code. -/
def isCode (c : Char) : Bool := (Quote.ofChar? c).isNone

/-- The sections of a text in order; if one is never closed, its quote. -/
def split (cs : List Char) : Except Quote (List Section) :=
  match cs with
  | [] => .ok []
  | c :: rest =>
    match Quote.ofChar? c with
    | some quote =>
      match h : readQuoted c rest with
      | none => .error quote
      | some (body, tail) =>
        have : tail.length < rest.length := length_readQuoted h
        (split tail).map (⟨.quoted quote, c :: body⟩ :: ·)
    | none =>
      have : (rest.dropWhile isCode).length ≤ rest.length := (List.dropWhile_suffix _).length_le
      (split (rest.dropWhile isCode)).map (⟨.code, c :: rest.takeWhile isCode⟩ :: ·)
termination_by cs.length

/-- The text that sections make up. -/
def join (sections : List Section) : List Char := sections.flatMap chars

end Section

/-- The sections of a statement text. -/
def sectionsOf (sql : String) : Except Failure (List Section) :=
  (Section.split sql.toList).mapError fun quote =>
    .binding sql ("unterminated " ++ quote.char.toString ++ " quoted section")

end RecordSql
