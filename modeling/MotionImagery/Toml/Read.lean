import MotionImagery.Toml.Date
import MotionImagery.Toml.Number
import MotionImagery.Toml.Quoted
import MotionImagery.Toml.Value

/-!
Reading a TOML document: its values, its keys, and its statements one line after the other.

Each reader gives what it read and the text after it. Lists and tables in braces are read with the
room that is left for lists and tables inside them.
-/
namespace MotionImagery.Toml

/-- Lists and tables in braces lie in at most so many others, and a path has at most so many keys. -/
def deepest : Nat := 79

def skipSpaces (text : List Char) : List Char := text.dropWhile isSpace

/-- Passes over blanks, line breaks and comments. -/
def skipLines (inComment : Bool) : List Char → List Char
  | '\n' :: rest => skipLines false rest
  | '\r' :: '\n' :: rest => skipLines false rest
  | c :: rest =>
    if inComment then if isPlain c then skipLines true rest else c :: rest
    else if isSpace c then skipLines false rest
    else if c = '#' then skipLines true rest
    else c :: rest
  | [] => []

/-- What follows the end of a line, before which there may be blanks and a comment. -/
def endLine? (text : List Char) : Option (List Char) :=
  let start := skipSpaces text
  let rest := if start.head? = some '#' then start.dropWhile isPlain else start
  match rest with
  | [] => some []
  | '\n' :: next | '\r' :: '\n' :: next => some next
  | _ => none

/-- A character of a key without quotes. -/
def isBare (c : Char) : Bool := c.isAlphanum || c == '_' || c == '-'

def key? (text : List Char) : Option (String × List Char) :=
  let bare := text.takeWhile isBare
  if bare.isEmpty then quotedLine? text else some (String.ofList bare, text.dropWhile isBare)

/-- Up to so many keys with points between them. -/
def keyPath? : Nat → Reader KeyPath
  | 0, _ => none
  | room + 1, text =>
    (key? (skipSpaces text)).bind fun (key, rest) =>
      match skipSpaces rest with
      | '.' :: more =>
        (keyPath? room more).map fun (path, after) => ({ path with parents := key :: path.parents }, after)
      | after => some (⟨[], key⟩, after)

/-- A character of a number, a date, a time, or a name of a value. -/
def isAtomic (c : Char) : Bool := c.isAlphanum || c ∈ ['_', '-', '+', '.', ':']

def atom? (text : List Char) : Option Value :=
  if text = "true".toList then some (.truth true)
  else if text = "false".toList then some (.truth false)
  else if isDateOrTime text then some (.date (String.ofList text))
  else
    match integer? text with
    | some number => some (.integer number)
    | none => (float? text).map .float

/-- A date may be set off from its time by a space; any other value has none inside. -/
def plain? : Reader Value := fun text =>
  let first := text.takeWhile isAtomic
  let rest := text.dropWhile isAtomic
  match rest with
  | ' ' :: after =>
    let second := after.takeWhile isAtomic
    if isDate first && isTimeOfDate second then
      some (.date (String.ofList (first ++ ' ' :: second)), after.dropWhile isAtomic)
    else (atom? first).map fun value => (value, rest)
  | _ => (atom? first).map fun value => (value, rest)

/-- The values of a list up to its closing bracket; a comma may follow the last. Of as many values
as there are characters, and one more, the bracket is found. -/
def items? (value? : Reader Value) : Nat → Reader (List Value)
  | 0, _ => none
  | count + 1, text =>
    match skipLines false text with
    | ']' :: rest => some ([], rest)
    | start =>
      (value? start).bind fun (item, rest) =>
        match skipLines false rest with
        | ',' :: more => (items? value? count more).map fun (items, after) => (item :: items, after)
        | ']' :: after => some ([item], after)
        | _ => none

/-- A key path, an equals sign, and a value. -/
def assignment? (value? : Reader Value) : Reader (KeyPath × Value) := fun text =>
  (keyPath? deepest text).bind fun (path, rest) =>
    match rest with
    | '=' :: start => (value? (skipSpaces start)).map fun (value, after) => ((path, value), after)
    | _ => none

/-- The entries of a table up to its closing brace, all on one line. -/
def entries? (value? : Reader Value) : Nat → Reader (List (KeyPath × Value))
  | 0, _ => none
  | count + 1, text =>
    (assignment? value? text).bind fun (entry, rest) =>
      match skipSpaces rest with
      | ',' :: more =>
        (entries? value? count more).map fun (entries, after) => (entry :: entries, after)
      | '\x7d' :: after => some ([entry], after)
      | _ => none

/-- A table after its opening brace. -/
def braces? (value? : Reader Value) : Reader Value := fun text =>
  match skipSpaces text with
  | '\x7d' :: after => some (.table .complete [], after)
  | start =>
    (entries? value? (text.length + 1) start).bind fun (entries, after) =>
      (inlineTable? entries).map fun table => (table, after)

/-- A value that has room for so many lists and tables inside one another. -/
def value? : Nat → Reader Value
  | _, '"' :: rest => (quoted? ('"' :: rest)).map fun (text, after) => (.text text, after)
  | _, '\'' :: rest => (quoted? ('\'' :: rest)).map fun (text, after) => (.text text, after)
  | room + 1, '[' :: rest =>
    (items? (value? room) (rest.length + 1) rest).map fun (items, after) => (.list items, after)
  | room + 1, '\x7b' :: rest => braces? (value? room) rest
  | _, text => plain? text

def statement? : Reader Statement
  | '[' :: '[' :: rest =>
    (keyPath? deepest rest).bind fun (path, after) =>
      match after with
      | ']' :: ']' :: after => some (.element path, after)
      | _ => none
  | '[' :: rest =>
    (keyPath? deepest rest).bind fun (path, after) =>
      match after with
      | ']' :: after => some (.table path, after)
      | _ => none
  | text => (assignment? (value? deepest) text).map fun ((path, value), after) =>
      (.assignment path value, after)

/-- Each statement is on lines of its own. Of as many statements as there are characters, and one
more, the end is found. -/
def statements? : Nat → List Char → Option (List Statement)
  | 0, _ => none
  | count + 1, text =>
    match skipLines false text with
    | [] => some []
    | start => do
      let (statement, rest) ← statement? start
      let others ← statements? count (← endLine? rest)
      return statement :: others

/-- The mark that may stand at the beginning of a document. -/
def byteOrderMark : Char := '\uFEFF'

/-- The members of the document's outermost table. -/
def read? (text : String) : Option Members := do
  let chars := match text.toList with
    | c :: rest => if c = byteOrderMark then rest else c :: rest
    | [] => []
  let document ← Document.ofStatements? (← statements? (chars.length + 1) chars)
  return document.members

end MotionImagery.Toml
