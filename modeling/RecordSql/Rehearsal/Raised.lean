import RecordSql.Failure.Name
import RecordSql.Model.Basic

/-!
# Scripted errors

A script says by name and arguments which error arises. `raised` makes the failure: one of the library's own if it has
the name and takes the arguments, else an error from outside, of the family that its name tells.
-/

namespace RecordSql.Rehearsal

/-- The families of errors from outside, by name; all others are of none. -/
def outsideFamilies : List (String × Family) :=
  [("KeyError", .key), ("LookupError", .lookup), ("IndexError", .lookup), ("ValueError", .value),
    ("UnicodeError", .value), ("UnicodeEncodeError", .value), ("UnicodeDecodeError", .value),
    ("UnicodeTranslateError", .value), ("TypeError", .type), ("BaseException", .interrupt),
    ("KeyboardInterrupt", .interrupt), ("SystemExit", .interrupt), ("GeneratorExit", .interrupt)]

/-- The names of errors of the operating system, with the number that tells each from the general one. -/
def systemErrors : List (String × List Int) :=
  [("PermissionError", [1, 13]), ("FileNotFoundError", [2]), ("ProcessLookupError", [3]),
    ("InterruptedError", [4]), ("ChildProcessError", [10]), ("BlockingIOError", [11, 114, 115]),
    ("FileExistsError", [17]), ("NotADirectoryError", [20]), ("IsADirectoryError", [21]),
    ("BrokenPipeError", [32, 108]), ("ConnectionAbortedError", [103]), ("ConnectionResetError", [104]),
    ("TimeoutError", [110]), ("ConnectionRefusedError", [111]), ("OSError", [])]

/-- The name that an error of the operating system gets from its number, if it has one with a text. -/
def systemName (name : String) (args : List Value) : String :=
  match name, args with
  | "OSError", number :: _ :: rest =>
    let known := systemErrors.find? fun (_, numbers) => number.toInt?.any numbers.contains
    if rest.length ≤ 3 then (known.map (·.1)).getD name else name
  | _, _ => name

/-- The text of an error of the operating system with a number, a text, and the files that it is about. For an operation
that would have to wait, a number in the place of the first file is no file. -/
def systemText? (name : String) (args : List Value) : Option String :=
  match args with
  | number :: detail :: rest =>
    let files : List Value := match rest with
      | [] => []
      | file :: more =>
        if file.isNull ∨ (name = "BlockingIOError" ∧ file.toInt?.isSome) then []
        else file :: ((more[1]?).filter fun f => !f.isNull).toList
    let start := "[Errno " ++ number.display ++ "] " ++ detail.display
    if rest.length ≤ 3 then
      some (match files with
        | [] => start
        | files => start ++ ": " ++ String.intercalate " -> " (files.map Value.literal))
    else none
  | _ => none

/-- The names of errors of syntax. -/
def syntaxErrors : List String := ["SyntaxError", "IndentationError", "TabError"]

/-- Where an error of syntax is: its file, without the directories, and its line. -/
def syntaxPlace (file line : Value) : Option String :=
  let file := file.toText?.map fun path => String.ofList (path.toList.reverse.takeWhile (· ≠ '/')).reverse
  let line := match line with
    | .integer n => some ("line " ++ toString n)
    | _ => none
  let parts := file.toList ++ line.toList
  if parts.isEmpty then none else some (" (" ++ String.intercalate ", " parts ++ ")")

/-- The text of an error of syntax; else what is wrong with the arguments: the second has to say where it is. -/
def syntaxText : List Value → Except String String
  | [] => .ok "None"
  | [detail, place] => match place.items? with
    | none => .error ("'" ++ place.typeName ++ "' object is not iterable")
    | some items => match items, items.length with
      | file :: line :: _, 4 | file :: line :: _, 6 => .ok (detail.display ++ (syntaxPlace file line).getD "")
      | _, 5 => .error "end_offset must be provided when end_lineno is provided"
      | _, n =>
        let bound := if n < 4 then "at least 4" else "at most 6"
        .error ("function takes " ++ bound ++ " arguments (" ++ toString n ++ " given)")
  | detail :: _ => .ok detail.display

/-- The part of a text or of a byte string that an error of encoding is about: the number of its only item, if it has
one item, or the places of its first and last. -/
def encodingPart (item items : String) (numbers : List Nat) (written : Nat → String) (first last : Int) : String :=
  match if last = first + 1 ∧ 0 ≤ first then numbers[first.toNat]? else none with
  | some n => item ++ " " ++ written n ++ " in position " ++ toString first
  | none => items ++ " in position " ++ toString first ++ "-" ++ toString (last - 1)

/-- A character by its number. -/
def writtenCharacter (n : Nat) : String :=
  let hex (mark : Char) (width : Nat) := String.ofList ('\x27' :: '\\' :: mark :: (Literal.hex width n ++ ['\x27']))
  if n < 0x100 then hex 'x' 2 else if n < 0x10000 then hex 'u' 4 else hex 'U' 8

/-- A byte by its number. -/
def writtenByte (n : Nat) : String := String.ofList ('0' :: 'x' :: Literal.hex 2 n)

/-- The names of errors of encoding. -/
def encodingErrors : List String := ["UnicodeEncodeError", "UnicodeDecodeError", "UnicodeTranslateError"]

/-- An argument that has to be a text. -/
def textArgument (number : Nat) (v : Value) : Except String String :=
  match v.toText? with
  | some s => .ok s
  | none => .error ("argument " ++ toString number ++ " must be str, not " ++ v.typeName)

/-- An argument that has to be a whole number. -/
def wholeArgument (v : Value) : Except String Int :=
  match v.toInt? with
  | some n => .ok n
  | none => .error ("'" ++ v.typeName ++ "' object cannot be interpreted as an integer")

/-- An argument that has to be a byte string. -/
def bytesArgument : Value → Except String (List UInt8)
  | .bytes _ data => .ok data
  | v => .error ("a bytes-like object is required, not '" ++ v.typeName ++ "'")

/-- The text of an error of encoding; else what is wrong with the number or the types of its arguments. -/
def encodingText (name : String) (args : List Value) : Except String String :=
  let needed (n : Nat) : Except String String :=
    .error ("function takes exactly " ++ toString n ++ " arguments (" ++ toString args.length ++ " given)")
  let ofText (text : String) : Int → Int → String :=
    encodingPart "character" "characters" (text.toList.map Char.toNat) writtenCharacter
  match name, args with
  | "UnicodeTranslateError", [object, first, last, reason] => do
    let part := ofText (← textArgument 1 object) (← wholeArgument first) (← wholeArgument last)
    return "can't translate " ++ part ++ ": " ++ (← textArgument 4 reason)
  | "UnicodeTranslateError", _ => needed 4
  | "UnicodeDecodeError", [coder, object, first, last, reason] => do
    let start := "'" ++ (← textArgument 1 coder) ++ "' codec can't decode "
    let numbers := (← bytesArgument object).map UInt8.toNat
    let part := encodingPart "byte" "bytes" numbers writtenByte (← wholeArgument first) (← wholeArgument last)
    return start ++ part ++ ": " ++ (← textArgument 5 reason)
  | _, [coder, object, first, last, reason] => do
    let start := "'" ++ (← textArgument 1 coder) ++ "' codec can't encode "
    let part := ofText (← textArgument 2 object) (← wholeArgument first) (← wholeArgument last)
    return start ++ part ++ ": " ++ (← textArgument 5 reason)
  | _, _ => needed 5

/-- Whether a value has its items in places. -/
def isSequence (v : Value) : Bool :=
  match v with
  | .list _ | .tuple _ | .bytes _ _ => true
  | v => v.toText?.isSome

/-- The failure of making a group of errors, for which values cannot do. -/
def groupFailure : List Value → Failure
  | [detail, members] =>
    let invalid (text : String) : Failure := .foreign ⟨"ValueError", .value, [], some text, []⟩
    match textArgument 1 detail, isSequence members, members.items? with
    | .error text, _, _ => .badCall ("BaseExceptionGroup.__new__() " ++ text)
    | _, true, some [] => invalid "second argument (exceptions) must be a non-empty sequence"
    | _, true, some _ => invalid "Item 0 of second argument (exceptions) is not an exception"
    | _, _, _ => .badCall "second argument (exceptions) must be a sequence"
  | args => .badCall ("BaseExceptionGroup.__new__() takes exactly 2 arguments (" ++ toString args.length ++ " given)")

/-- The text of an error from outside that makes it in a way of its own; else what is wrong with its arguments. -/
def ownText (name : String) (args : List Value) : Except String (Option String) :=
  if systemErrors.any (·.1 = name) then .ok (systemText? name args)
  else if encodingErrors.contains name then (encodingText name args).map some
  else if syntaxErrors.contains name then (syntaxText args).map some
  else .ok none

/-- An error of the library by its name, made of texts. -/
def ownError? (name : String) (args : List String) : Option Failure :=
  let candidates : List Failure := match args with
    | [a] => [.conditionRequired a, .rowRequired a, .columnRequired a, .assignmentRequired a]
    | [a, b] => [.tableDefinition a b, .relationDefinition a b, .queryFailed a b, .binding a b,
      .illTyped a b, .transactionState a b]
    | _ => []
  candidates.find? (·.name = name)

/-- The attributes of the library's error of that name, in the order of its arguments. -/
def attributesOf (name : String) : List String :=
  if name = "FieldColumnMismatchError" then ["target_class", "missing_fields"]
  else ((ownError? name ["", ""]).or (ownError? name [""])).elim [] fun e => e.attributes.map (·.1)

/-- The arguments of the library's error of that name, those first that it cannot do without. -/
def parametersOf (name : String) : List String × List String :=
  let detailed := ["RepositoryConfigurationError", "RelationshipDefinitionError", "ParameterBindingError",
    "TypeMismatchError"]
  if name = "UnsupportedValueTypeError" then (["value"], ["detail"])
  else (attributesOf name ++ (if detailed.contains name then ["detail"] else []), [])

/-- The failure of a call of the library's error of that name with a number of arguments that it does not take. -/
def miscalled (name : String) (given : Nat) : Failure :=
  let (required, optional) := parametersOf name
  let most := required.length + optional.length
  if given < required.length then Model.lacking name "positional" (required.drop given)
  else
    let takes := if optional.isEmpty then toString (most + 1)
      else "from " ++ toString (required.length + 1) ++ " to " ++ toString (most + 1)
    .badCall (name ++ ".__init__() takes " ++ takes ++ " positional arguments but " ++ toString (given + 1)
      ++ " were given")

/-- An error by its name and arguments. One that is called with arguments which it does not take is a failure of
type. -/
def raised (name : String) (args : List Value) : Failure :=
  let shown := args.map Value.display
  let plain := args.filterMap fun
    | .text s => some s
    | _ => none
  let foreign (family : Family) (text : Option String) : Failure :=
    .foreign ⟨name, family, args, text, (attributesOf name).zip args⟩
  match name, args with
  | "UnsupportedValueTypeError", [a] => .unsupportedValue a.typeName none
  | "UnsupportedValueTypeError", [a, b] =>
    .unsupportedValue a.typeName (if b.isTruthy then some b.display else none)
  | "FieldColumnMismatchError", [a, b] =>
    foreign .mapping (some ("Cannot map to " ++ a.display ++ ": missing fields " ++ b.display))
  | _, _ => match ownError? name shown with
    | some e => if plain = shown then e else foreign e.family e.message
    | none =>
      if !(parametersOf name).1.isEmpty then miscalled name args.length
      else if ["ExceptionGroup", "BaseExceptionGroup"].contains name then groupFailure args
      else
        let name := systemName (if ["IOError", "EnvironmentError"].contains name then "OSError" else name) args
        match ownText name args with
        | .error detail => .badCall detail
        | .ok text =>
          .foreign ⟨name, ((Family.named ++ outsideFamilies).lookup name).getD .other, args, text, []⟩

end RecordSql.Rehearsal
