import MotionImagery.Text.Numeral
import MotionImagery.Text.Split

/-!
Addresses of hosts and ports: how they are read, and how they are written.

A host of four bytes is written in decimal with points. A host of eight groups is written in
hexadecimal with colons, in brackets; two colons next to each other stand for one or more groups of
zero, and the last two groups may be written as four bytes.
-/
namespace MotionImagery.Network

inductive Address where
  | v4 (bytes : List Nat) (port : Nat)
  /-- The scope is zero unless it was given. -/
  | v6 (groups : List Nat) (scope port : Nat)
  deriving DecidableEq, Repr

namespace Address

def groupCount : Nat := 8

/-- A byte in decimal, without zeros in front. -/
def byte? (text : List Char) : Option Nat :=
  if text.length ≤ 3 ∧ ¬ (1 < text.length ∧ text.head? = some '0') then
    (Text.digits? text).bind fun byte => if byte < 256 then some byte else none
  else none

def bytes? (text : List Char) : Option (List Nat) :=
  let parts := Text.splitAll '.' text
  if parts.length = 4 then parts.mapM byte? else none

/-- A group of up to four hexadecimal digits. -/
def group? (text : List Char) : Option Nat :=
  if 0 < text.length ∧ text.length ≤ 4 then Text.hexDigits? text else none

/-- Groups with colons between them; where `embedding` is allowed, the last may be four bytes. -/
def groups? (embedding : Bool) (text : List Char) : Option (List Nat) :=
  if text.isEmpty then some []
  else
    let parts := Text.splitAll ':' text
    match parts.getLast?.bind bytes? with
    | some [a, b, c, d] =>
      if embedding then
        (parts.dropLast.mapM group?).map (· ++ [a * 256 + b, c * 256 + d])
      else none
    | _ => parts.mapM group?

def host6? (text : List Char) : Option (List Nat) := do
  match Text.splitAtFirst? [':', ':'] text with
  | none =>
    let groups ← groups? true text
    if groups.length = groupCount then some groups else none
  | some (front, back) =>
    let first ← groups? false front
    let last ← groups? true back
    let given := first.length + last.length
    if given < groupCount then some (first ++ List.replicate (groupCount - given) 0 ++ last)
    else none

/-- A number of digits, at most the limit. -/
def number? (limit : Nat) (text : List Char) : Option Nat :=
  (Text.digits? text).bind fun number => if number ≤ limit then some number else none

def maxPort : Nat := 0xFFFF

def maxScope : Nat := 0xFFFFFFFF

def read? (text : String) : Option Address := do
  match text.toList with
  | '[' :: inner =>
    let (host, after) ← Text.splitAtFirst? [']', ':'] inner
    let (host, scope) ←
      match Text.splitAtFirst? ['%'] host with
      | none => pure (host, 0)
      | some (host, scope) => (number? maxScope scope).map fun scope => (host, scope)
    return .v6 (← host6? host) scope (← number? maxPort after)
  | plain =>
    let (host, port) ← Text.splitAtFirst? [':'] plain
    return .v4 (← bytes? host) (← number? maxPort port)

def writeBytes (bytes : List Nat) : String := String.intercalate "." (bytes.map Text.decimal)

def writeGroups (groups : List Nat) : String :=
  String.intercalate ":" (groups.map fun group => String.ofList (Nat.toDigits 16 group))

/-- How many groups of zero there are at the front. -/
def zeros (groups : List Nat) : Nat := (groups.takeWhile (· == 0)).length

/-- The place and the length of the longest run of zeros; of runs of one length, the first. -/
def longestZeros (groups : List Nat) : Nat × Nat :=
  (List.range groups.length).foldl (fun best start =>
    let length := zeros (groups.drop start)
    if best.2 < length then (start, length) else best) (0, 0)

/-- A host of four bytes in the place that is set aside for such hosts is written as four bytes. -/
def writeHost6 (groups : List Nat) : String :=
  match groups with
  | [0, 0, 0, 0, 0, 0xFFFF, high, low] =>
    "::ffff:" ++ writeBytes [high / 256, high % 256, low / 256, low % 256]
  | _ =>
    let (start, length) := longestZeros groups
    if 1 < length then
      writeGroups (groups.take start) ++ "::" ++ writeGroups (groups.drop (start + length))
    else writeGroups groups

def write : Address → String
  | v4 bytes port => writeBytes bytes ++ ":" ++ Text.decimal port
  | v6 groups scope port =>
    let suffix := if scope = 0 then "" else "%" ++ Text.decimal scope
    "[" ++ writeHost6 groups ++ suffix ++ "]:" ++ Text.decimal port

end Address

end MotionImagery.Network
