import MotionImagery.Decimal.Layout

/-!
JSON text, compact or indented by two spaces. Members keep the order they are given in.
-/
namespace MotionImagery.Text

inductive Json where
  | null
  | integer (number : Int)
  | float (number : Float)
  | text (content : String)
  | array (items : List Json)
  | object (members : List (String × Json))

namespace Json

def hexDigit (number : Nat) : Char := (Nat.toDigits 16 number).headD '0'

/-- Quote, backslash and the control characters below a space are written with a backslash. -/
def escape (c : Char) : List Char :=
  if c = '"' then ['\\', '"']
  else if c = '\\' then ['\\', '\\']
  else if c.toNat = 8 then ['\\', 'b']
  else if c.toNat = 9 then ['\\', 't']
  else if c.toNat = 10 then ['\\', 'n']
  else if c.toNat = 12 then ['\\', 'f']
  else if c.toNat = 13 then ['\\', 'r']
  else if c.toNat < 0x20 then
    ['\\', 'u', '0', '0', hexDigit (c.toNat / 16), hexDigit (c.toNat % 16)]
  else [c]

def quoted (content : String) : String :=
  String.ofList ('"' :: content.toList.flatMap escape ++ ['"'])

mutual

def compact : Json → String
  | null => "null"
  | integer number => signedDecimal number
  | float number => Decimal.Layout.json.write number
  | text content => quoted content
  | array items => "[" ++ String.intercalate "," (compactItems items) ++ "]"
  | object members => "\x7b" ++ String.intercalate "," (compactMembers members) ++ "\x7d"

def compactItems : List Json → List String
  | [] => []
  | item :: rest => compact item :: compactItems rest

def compactMembers : List (String × Json) → List String
  | [] => []
  | (key, value) :: rest => (quoted key ++ ":" ++ compact value) :: compactMembers rest

end

/-- A line break and the indentation of a level. -/
def newline (level : Nat) : String := "\n" ++ String.ofList (List.replicate (2 * level) ' ')

/-- Items between brackets, each on a line of its own; brackets without items stay together. -/
def block (level : Nat) (opening closing : String) (items : List String) : String :=
  if items.isEmpty then opening ++ closing
  else opening ++ newline (level + 1) ++ String.intercalate ("," ++ newline (level + 1)) items ++
    newline level ++ closing

mutual

def indented (level : Nat) : Json → String
  | null => "null"
  | integer number => signedDecimal number
  | float number => Decimal.Layout.json.write number
  | text content => quoted content
  | array items => block level "[" "]" (indentedItems (level + 1) items)
  | object members => block level "\x7b" "\x7d" (indentedMembers (level + 1) members)

def indentedItems (level : Nat) : List Json → List String
  | [] => []
  | item :: rest => indented level item :: indentedItems level rest

def indentedMembers (level : Nat) : List (String × Json) → List String
  | [] => []
  | (key, value) :: rest =>
    (quoted key ++ ": " ++ indented level value) :: indentedMembers level rest

end

def pretty (value : Json) : String := indented 0 value

end Json

end MotionImagery.Text
