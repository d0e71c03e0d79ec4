import RecordSql.Sql.Section
import RecordSql.Text.Digit

/-!
# Marks

In a fragment a value is marked by `?`. When a statement is finished its marks become `$1`, `$2`, … from left to right;
before it is run they become what the driver expects. Quoted sections are never touched, except that the percent style
doubles every percent sign.
-/

namespace RecordSql

/-- How a driver wants the places of bound values to be marked. -/
inductive Style
  /-- `$1`, `$2`, … as they are. -/
  | numeric
  /-- `?` at every place. -/
  | question
  /-- `%s` at every place, and `%%` for a percent sign. -/
  | percent
  deriving DecidableEq, Repr

namespace Style

def name : Style → String
  | .numeric => "numeric"
  | .question => "qmark"
  | .percent => "format"

def ofName? (name : String) : Except Failure Style :=
  match [Style.numeric, .question, .percent].find? (·.name = name) with
  | some style => .ok style
  | none => .error (.unknownStyle name)

end Style

namespace Mark

/-- The marks of code, numbered on from `next`, and the number after them. -/
def numberCode (next : Int) : List Char → List Char × Int
  | [] => ([], next)
  | c :: rest =>
    if c = '?' then
      let (out, k) := numberCode (next + 1) rest
      ('$' :: (toString next).toList ++ out, k)
    else
      let (out, k) := numberCode next rest
      (c :: out, k)

/-- The marks of all code sections, numbered on from `next`, and the number after them. -/
def numberSections (next : Int) : List Section → List Char × Int
  | [] => ([], next)
  | s :: rest =>
    let (out, k) := match s.kind with
      | .code => numberCode next s.chars
      | .quoted _ => (s.chars, next)
    let (tail, l) := numberSections k rest
    (out ++ tail, l)

/-- Code with each numbered mark, a dollar sign and all digits after it, replaced; `inRun` says that the last character
read belongs to such a mark. -/
def respellCode (mark : List Char) (inRun : Bool) : List Char → List Char
  | [] => []
  | c :: rest =>
    if inRun && Text.isDecimalDigit c then respellCode mark true rest
    else if c = '$' ∧ rest.head?.any Text.isDecimalDigit then mark ++ respellCode mark true rest
    else c :: respellCode mark false rest

/-- Every percent sign written twice. -/
def doublePercent (cs : List Char) : List Char :=
  cs.flatMap fun c => if c = '%' then ['%', '%'] else [c]

/-- A section in the marks of a style. -/
def respell (style : Style) (s : Section) : List Char :=
  match style, s.kind with
  | .numeric, _ => s.chars
  | .question, .code => respellCode ['?'] false s.chars
  | .question, .quoted _ => s.chars
  | .percent, .code => respellCode ['%', 's'] false (doublePercent s.chars)
  | .percent, .quoted _ => doublePercent s.chars

end Mark

/-- The text with its marks numbered from `start`, and their count. -/
def numberMarks (sql : String) (start : Int) : Except Failure (String × Nat) :=
  (sectionsOf sql).map fun sections =>
    let (out, next) := Mark.numberSections start sections
    (String.ofList out, (next - start).toNat)

/-- A text with numbered marks, in the marks of a style. The numeric style is the text itself, whatever it holds. -/
def styled (sql : String) : Style → Except Failure String
  | .numeric => .ok sql
  | style => (sectionsOf sql).map fun sections =>
    String.ofList (sections.flatMap (Mark.respell style))

end RecordSql
