import MotionImagery.Text.Numeral

/-!
Quoted text in TOML. Between double quotes a backslash begins an escape; between single quotes
every character stands for itself. Three quotes enclose text of more than one line, which may end
with one or two quotes of its own; a line break right after the opening is left out.
-/
namespace MotionImagery.Toml

/-- A character that may stand in a line of text. -/
def isPlain (c : Char) : Bool :=
  c == '\t' || (decide (0x20 ≤ c.toNat) && c.toNat != 0x7F)

def isSpace (c : Char) : Bool := c == ' ' || c == '\t'

/-- What an escape of one letter stands for. -/
def escape? (c : Char) : Option Char :=
  if c = 'b' then some (Char.ofNat 8)
  else if c = 't' then some '\t'
  else if c = 'n' then some '\n'
  else if c = 'f' then some (Char.ofNat 12)
  else if c = 'r' then some '\r'
  else if c = '"' ∨ c = '\\' then some c
  else none

/-- The character of a code point in hexadecimal. -/
def scalar? (digits : List Char) : Option Char :=
  (Text.hexDigits? digits).bind fun number =>
    if number.isValidChar then some (Char.ofNat number) else none

abbrev Reader (α : Type) := List Char → Option (α × List Char)

def andThen (c : Char) : Option (List Char × List Char) → Option (List Char × List Char) :=
  Option.map fun (text, rest) => (c :: text, rest)

/-- The text up to a closing double quote. -/
def basic? : Reader (List Char)
  | '"' :: rest => some ([], rest)
  | '\\' :: 'u' :: a :: b :: c :: d :: rest =>
    (scalar? [a, b, c, d]).bind fun scalar => andThen scalar (basic? rest)
  | '\\' :: 'U' :: a :: b :: c :: d :: e :: f :: g :: h :: rest =>
    (scalar? [a, b, c, d, e, f, g, h]).bind fun scalar => andThen scalar (basic? rest)
  | '\\' :: c :: rest => (escape? c).bind fun scalar => andThen scalar (basic? rest)
  | c :: rest => if isPlain c then andThen c (basic? rest) else none
  | [] => none

/-- The text up to a closing single quote. -/
def literal? : Reader (List Char)
  | '\'' :: rest => some ([], rest)
  | c :: rest => if isPlain c then andThen c (literal? rest) else none
  | [] => none

/-- Quotes right after three closing ones belong to the text, but two at most. -/
def closing (quote : Char) : List Char → List Char × List Char
  | c :: d :: rest =>
    if c = quote ∧ d = quote then ([quote, quote], rest)
    else if c = quote then ([quote], d :: rest)
    else ([], c :: d :: rest)
  | [c] => if c = quote then ([quote], []) else ([], [c])
  | [] => ([], [])

/-- There is nothing but blanks before the end of the line. -/
def isBreak (text : List Char) : Bool :=
  match text.dropWhile isSpace with
  | '\n' :: _ | '\r' :: '\n' :: _ => true
  | _ => false

/-- The text up to three closing double quotes. A backslash at the end of a line leaves out the
line break and all blanks after it. -/
def basicLines? (leavingOut : Bool) : Reader (List Char)
  | '"' :: '"' :: '"' :: rest => some (closing '"' rest)
  | '\r' :: '\n' :: rest =>
    if leavingOut then basicLines? true rest else andThen '\n' (basicLines? false rest)
  | '\n' :: rest =>
    if leavingOut then basicLines? true rest else andThen '\n' (basicLines? false rest)
  | '\\' :: 'u' :: a :: b :: c :: d :: rest =>
    (scalar? [a, b, c, d]).bind fun scalar => andThen scalar (basicLines? false rest)
  | '\\' :: 'U' :: a :: b :: c :: d :: e :: f :: g :: h :: rest =>
    (scalar? [a, b, c, d, e, f, g, h]).bind fun scalar => andThen scalar (basicLines? false rest)
  | '\\' :: c :: rest =>
    match escape? c with
    | some scalar => andThen scalar (basicLines? false rest)
    | none => if isBreak (c :: rest) then basicLines? true (c :: rest) else none
  | c :: rest =>
    if leavingOut && isSpace c then basicLines? true rest
    else if isPlain c then andThen c (basicLines? false rest)
    else none
  | [] => none

/-- The text up to three closing single quotes. -/
def literalLines? : Reader (List Char)
  | '\'' :: '\'' :: '\'' :: rest => some (closing '\'' rest)
  | '\r' :: '\n' :: rest => andThen '\n' (literalLines? rest)
  | c :: rest => if isPlain c || c == '\n' then andThen c (literalLines? rest) else none
  | [] => none

/-- Text without a line break at its beginning. -/
def withoutBreak : List Char → List Char
  | '\r' :: '\n' :: rest => rest
  | '\n' :: rest => rest
  | text => text

/-- Quoted text of one line. -/
def quotedLine? : Reader String
  | '"' :: rest => (basic? rest).map fun (text, rest) => (String.ofList text, rest)
  | '\'' :: rest => (literal? rest).map fun (text, rest) => (String.ofList text, rest)
  | _ => none

def quoted? : Reader String
  | '"' :: '"' :: '"' :: rest =>
    (basicLines? false (withoutBreak rest)).map fun (text, rest) => (String.ofList text, rest)
  | '\'' :: '\'' :: '\'' :: rest =>
    (literalLines? (withoutBreak rest)).map fun (text, rest) => (String.ofList text, rest)
  | text => quotedLine? text

end MotionImagery.Toml
