import MotionImagery.Bytes

/-!
Integers as text. Writing: decimal, hexadecimal in capitals, and decimal under a least width.
Reading: a sign that the range admits, then ASCII digits and nothing else; a number outside
the range is refused.
-/
namespace MotionImagery.Text

def decimal (number : Nat) : String := String.ofList (Nat.toDigits 10 number)

theorem decimal_injective : Function.Injective decimal := by
  intro number other same
  have digits : Nat.toDigits 10 number = Nat.toDigits 10 other := String.ofList_injective same
  calc number
      = Nat.ofDigitChars 10 (Nat.toDigits 10 number) 0 := Nat.ofDigitChars_ten_toDigits.symm
    _ = Nat.ofDigitChars 10 (Nat.toDigits 10 other) 0 := by rw [digits]
    _ = other := Nat.ofDigitChars_ten_toDigits

def signedDecimal (number : Int) : String :=
  if number < 0 then "-" ++ decimal number.natAbs else decimal number.natAbs

/-- Fills up to the width on the left; longer text is left as it is. -/
def padLeft (filler : Char) (width : Nat) (text : String) : String :=
  String.ofList (List.replicate (width - text.length) filler) ++ text

def zeroPadded (width number : Nat) : String := padLeft '0' width (decimal number)

/-- At least four hexadecimal digits in capitals. -/
def hex4 (number : Nat) : String :=
  padLeft '0' 4 (String.ofList ((Nat.toDigits 16 number).map Char.toUpper))

/-- The value of a non-empty run of ASCII digits. -/
def digits? (text : List Char) : Option Nat :=
  if text ≠ [] ∧ text.all (fun c => '0' ≤ c ∧ c ≤ '9') then
    some (text.foldl (fun number c => number * 10 + (c.toNat - '0'.toNat)) 0)
  else none

/-- The value of a hexadecimal digit in either case. -/
def hexDigit? (c : Char) : Option Nat :=
  if '0' ≤ c ∧ c ≤ '9' then some (c.toNat - '0'.toNat)
  else if 'a' ≤ c ∧ c ≤ 'f' then some (c.toNat - 'a'.toNat + 10)
  else if 'A' ≤ c ∧ c ≤ 'F' then some (c.toNat - 'A'.toNat + 10)
  else none

/-- The value of a run of hexadecimal digits. -/
def hexDigits? (text : List Char) : Option Nat :=
  text.foldlM (fun number c => (hexDigit? c).map fun digit => number * 16 + digit) 0

/-- An unsigned number of at most `limit`; a plus sign may stand first. -/
def unsigned? (limit : Nat) (text : List Char) : Option Nat :=
  let body := match text with
    | '+' :: rest => rest
    | _ => text
  (digits? body).bind fun number => if number ≤ limit then some number else none

/-- A number from `-limit - 1` to `limit`; either sign may stand first. -/
def signed? (limit : Nat) (text : List Char) : Option Int :=
  match text with
  | '-' :: rest =>
    (digits? rest).bind fun number => if number ≤ limit + 1 then some (-(number : Int)) else none
  | _ => (unsigned? limit text).map Int.ofNat

def unsigned64 : Nat := 0xFFFFFFFFFFFFFFFF

def signed64 : Nat := 0x7FFFFFFFFFFFFFFF

def truth? (text : String) : Option Bool :=
  if text = "true" then some true else if text = "false" then some false else none

end MotionImagery.Text
