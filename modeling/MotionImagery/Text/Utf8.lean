import MotionImagery.Bytes

/-!
Reading bytes as text without ever failing: a well-formed sequence gives its character, and each
longest beginning of a sequence that goes wrong gives one replacement character.
-/
namespace MotionImagery.Text

def replacement : Char := Char.ofNat 0xFFFD

/-- What may follow a lead byte: the least and the greatest second byte, and how many bytes
from `0x80` to `0xBF` come after that one. -/
structure Continuation where
  low : Nat
  high : Nat
  tails : Nat
  deriving DecidableEq, Repr

/-- The rule for a lead byte of two, three or four bytes; other bytes lead nothing. -/
def continuation? (lead : Nat) : Option Continuation :=
  if 0xC2 ≤ lead ∧ lead ≤ 0xDF then some ⟨0x80, 0xBF, 0⟩
  else if lead = 0xE0 then some ⟨0xA0, 0xBF, 1⟩
  else if lead = 0xED then some ⟨0x80, 0x9F, 1⟩
  else if 0xE1 ≤ lead ∧ lead ≤ 0xEF then some ⟨0x80, 0xBF, 1⟩
  else if lead = 0xF0 then some ⟨0x90, 0xBF, 2⟩
  else if 0xF1 ≤ lead ∧ lead ≤ 0xF3 then some ⟨0x80, 0xBF, 2⟩
  else if lead = 0xF4 then some ⟨0x80, 0x8F, 2⟩
  else none

def isTail (byte : UInt8) : Bool := decide (0x80 ≤ byte.toNat ∧ byte.toNat ≤ 0xBF)

/-- The character that the tails complete, and how many of the bytes belong to it; a byte that
is no tail leaves the replacement character for what came before it. -/
def completeTails (number used : Nat) : Nat → Bytes → Char × Nat
  | 0, _ => (Char.ofNat number, used)
  | tails + 1, byte :: rest =>
    if isTail byte then completeTails (number * 64 + byte.toNat % 64) (used + 1) tails rest
    else (replacement, used)
  | _ + 1, [] => (replacement, used)

/-- The first character, and how many bytes after the lead byte belong to it. -/
def firstChar (lead : UInt8) (rest : Bytes) : Char × Nat :=
  if lead.toNat < 0x80 then (Char.ofNat lead.toNat, 0)
  else match continuation? lead.toNat, rest with
    | some rule, second :: afterSecond =>
      if rule.low ≤ second.toNat ∧ second.toNat ≤ rule.high then
        let top := lead.toNat % Nat.pow 2 (5 - rule.tails)
        completeTails (top * 64 + second.toNat % 64) 1 rule.tails afterSecond
      else (replacement, 0)
    | _, _ => (replacement, 0)

def decodeChars : Bytes → List Char
  | [] => []
  | lead :: rest =>
    let first := firstChar lead rest
    first.1 :: decodeChars (rest.drop first.2)
termination_by bytes => bytes.length
decreasing_by simp only [List.length_drop, List.length_cons]; omega

def decode (bytes : Bytes) : String := String.ofList (decodeChars bytes)

/-- The bytes of a text. -/
def encode (text : String) : Bytes := text.toUTF8.toList

end MotionImagery.Text
