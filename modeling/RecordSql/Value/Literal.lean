import RecordSql.Number.Shortest
import RecordSql.Text.Printable
import RecordSql.Value.Basic

/-!
# The literal form of a value

`Value.literal` writes a value the way it is quoted in messages and log lines: texts in quotes with escapes, numbers
with their shortest digits, collections in brackets. `Value.display` is the same without quotes around a bare text.
-/

namespace RecordSql

/-- Numbers are written without an exponent from `0.0001` up to below `1e+16`, always with a point there, and with a
signed exponent of at least two digits elsewhere. -/
def literalLayout : Layout where
  least := -4
  first := 16
  mark := "e"
  exponentWidth := 2
  whole := ".0"
  nan := "nan"
  infinity := "inf"

namespace Literal

/-- A hexadecimal number, lower case, of at least the width given. -/
def hex (width n : Nat) : List Char :=
  let ds := Nat.toDigits 16 n
  List.replicate (width - ds.length) '0' ++ ds

/-- The quote around a text: double only if the text has a single quote and no double one. -/
def quoteFor (cs : List Char) : Char :=
  if cs.contains '\x27' && !cs.contains '\x22' then '\x22' else '\x27'

/-- The escapes that texts and byte strings share. -/
def escape? (quote c : Char) : Option (List Char) :=
  if c = quote ∨ c = '\\' then some ['\\', c]
  else if c = '\n' then some ['\\', 'n']
  else if c = '\r' then some ['\\', 'r']
  else if c = '\t' then some ['\\', 't']
  else none

/-- A character inside a quoted text. -/
def escape (quote c : Char) : List Char :=
  match escape? quote c with
  | some cs => cs
  | none =>
    if Text.isPrintable c then [c]
    else if c.toNat < 0x100 then '\\' :: 'x' :: hex 2 c.toNat
    else if c.toNat < 0x10000 then '\\' :: 'u' :: hex 4 c.toNat
    else '\\' :: 'U' :: hex 8 c.toNat

/-- A text in quotes. -/
def text (s : String) : String :=
  let cs := s.toList
  let quote := quoteFor cs
  String.ofList (quote :: (cs.flatMap (escape quote) ++ [quote]))

/-- A byte string in quotes, with its mark. In one that can be changed the single quote is always escaped. -/
def bytes (mutable : Bool) (data : List UInt8) : String :=
  let cs := data.map fun b => Char.ofNat b.toNat
  let quote := quoteFor cs
  let one (c : Char) : List Char :=
    match escape? (if mutable then '\x27' else quote) c with
    | some e => e
    | none => if 0x20 ≤ c.toNat ∧ c.toNat < 0x7F then [c] else '\\' :: 'x' :: hex 2 c.toNat
  let quoted := String.ofList ('b' :: quote :: (cs.flatMap one ++ [quote]))
  if mutable then "bytearray(" ++ quoted ++ ")" else quoted

/-- The items between brackets. -/
def bracket (opening closing : String) (items : List String) : String :=
  opening ++ String.intercalate ", " items ++ closing

end Literal

namespace Value

mutual

/-- The literal form of a value. -/
def literal : Value → String
  | .null => "None"
  | .truth b => if b then "True" else "False"
  | .integer n => toString n
  | .real x => literalLayout.render x
  | .text s => Literal.text s
  | .bytes mutable data => Literal.bytes mutable data
  | .list items => Literal.bracket "[" "]" (literals items)
  | .tuple [item] => "(" ++ literal item ++ ",)"
  | .tuple items => Literal.bracket "(" ")" (literals items)
  | .set [] => "set()"
  | .set items => Literal.bracket "\x7b" "\x7d" (literals items)
  | .stream _ _ => "<list_iterator object>"
  | .dict _ entries => Literal.bracket "\x7b" "\x7d" (literalEntries entries)
  | .symbol _ _ name value => "<E." ++ name ++ ": " ++ literal value ++ ">"
  | .param .null _ => "Parameter(null)"
  | .param kind value => "Parameter(" ++ kind.name ++ "=" ++ literal value ++ ")"
  | .default => "DEFAULT"
  | .record _ cls own inherited => match cls.style with
    | .constructed | .bare => "<" ++ cls.name ++ " object>"
    | .sequence =>
      let size := match own with
        | (_, .list items) :: _ => items.length
        | _ => 0
      cls.name ++ "(" ++ toString size ++ " models)"
    | _ =>
      let known := literalFields own ++ literalFields inherited
      cls.name ++ Literal.bracket "(" ")" (cls.fields.filterMap fun f =>
        (known.lookup f).map fun text => f ++ "=" ++ text)

def literals : List Value → List String
  | [] => []
  | v :: vs => literal v :: literals vs

def literalEntries : List (Value × Value) → List String
  | [] => []
  | (k, v) :: rest => (literal k ++ ": " ++ literal v) :: literalEntries rest

def literalFields : List (String × Value) → List (String × String)
  | [] => []
  | (k, v) :: rest => (k, literal v) :: literalFields rest

end

/-- A value in running text: a text as it is, an enumeration member by its name or, if it is a number, by that, and a
record of a schema by its fields. -/
def display (v : Value) : String :=
  match v with
  | .text s => s
  | .symbol _ .integer _ value => value.literal
  | .symbol _ _ name _ => "E." ++ name
  | .record _ cls _ _ => match cls.style with
    | .schematic => String.intercalate " " (v.declared.map fun (k, x) => k ++ "=" ++ x.literal)
    | _ => v.literal
  | v => v.literal

/-- The literal form of a list of texts. -/
def literalOfTexts (texts : List String) : String :=
  Literal.bracket "[" "]" (texts.map Literal.text)

end Value

end RecordSql
