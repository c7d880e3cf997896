import MotionImagery.Transport.Section
import MotionImagery.Transport.StreamKind

/-!
The two program tables. The association table names the PID of every program's map table;
a map table names the elementary streams of its program.
-/
namespace MotionImagery.Transport

inductive TableFault where
  | notAssociation
  | associationLength
  | notMap
  | mapTooShort
  | programInfoLength
  deriving DecidableEq, Repr

def TableFault.message : TableFault → String
  | notAssociation => "Not a PAT section"
  | associationLength => "Invalid PAT data length"
  | notMap => "Not a PMT section"
  | mapTooShort => "PMT data too short"
  | programInfoLength => "Invalid program info length"

/-- A program and the PID of its map table. -/
structure ProgramEntry where
  number : Nat
  pid : Nat
  deriving DecidableEq, Repr

structure AssociationTable where
  version : Nat
  programs : List ProgramEntry
  deriving DecidableEq, Repr

/-- A 13-bit PID under three reserved bits. -/
def pidOf (high low : UInt8) : Nat := high.toNat % 32 * 256 + low.toNat

/-- A 12-bit length under four reserved bits. -/
def lengthOf (high low : UInt8) : Nat := high.toNat % 16 * 256 + low.toNat

namespace AssociationTable

/-- The PID that carries this table. -/
def tablePid : Nat := 0

def tableId : Nat := 0x00

/-- Every four bytes are one entry. Program zero points at the network table and is not listed. -/
def entries : Bytes → List ProgramEntry
  | numberHigh :: numberLow :: pidHigh :: pidLow :: rest =>
    let number := numberHigh.toNat * 256 + numberLow.toNat
    if number = 0 then entries rest else ⟨number, pidOf pidHigh pidLow⟩ :: entries rest
  | _ => []

def ofSection (s : Section) : Except TableFault AssociationTable :=
  if s.tableId ≠ tableId then .error .notAssociation
  else if s.body.length % 4 ≠ 0 then .error .associationLength
  else .ok ⟨s.version, entries s.body⟩

def mapPids (table : AssociationTable) : List Nat := table.programs.map (·.pid)

end AssociationTable

structure StreamEntry where
  streamType : Nat
  pid : Nat
  deriving DecidableEq, Repr

structure MapTable where
  program : Nat
  version : Nat
  streams : List StreamEntry
  deriving DecidableEq, Repr

namespace MapTable

def tableId : Nat := 0x02

/-- The stream entries with their descriptors passed over. An entry whose descriptors are cut
off ends the list and is not part of it. -/
def entries : Bytes → List StreamEntry
  | streamType :: pidHigh :: pidLow :: lengthHigh :: lengthLow :: rest =>
    let described := lengthOf lengthHigh lengthLow
    if described ≤ rest.length then
      ⟨streamType.toNat, pidOf pidHigh pidLow⟩ :: entries (rest.drop described)
    else []
  | _ => []
termination_by body => body.length
decreasing_by simp only [List.length_drop, List.length_cons]; omega

/-- The first two bytes name the clock PID, the next two count the program's descriptors. -/
def ofSection (s : Section) : Except TableFault MapTable :=
  if s.tableId ≠ tableId then .error .notMap
  else match s.body with
    | _ :: _ :: lengthHigh :: lengthLow :: rest =>
      let described := lengthOf lengthHigh lengthLow
      if described ≤ rest.length then
        .ok ⟨s.extension, s.version, entries (rest.drop described)⟩
      else .error .programInfoLength
    | _ => .error .mapTooShort

end MapTable

end MotionImagery.Transport
