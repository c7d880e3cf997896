import MotionImagery.Checksum.Crc32

/-!
Table sections: a 12-bit length counts the bytes after the first three, and the last four
of them are the check of everything before.
-/
namespace MotionImagery.Transport

inductive SectionFault where
  | shortHeader
  | smallLength
  | incomplete
  | shortExtendedHeader
  deriving DecidableEq, Repr

def SectionFault.message : SectionFault → String
  | shortHeader => "Section too short for header"
  | smallLength => "Section length too small"
  | incomplete => "Incomplete section data"
  | shortExtendedHeader => "Section too short for extended header"

structure Section where
  tableId : Nat
  /-- The long form has five more header bytes: extension, version and section numbers. -/
  longForm : Bool
  length : Nat
  extension : Nat
  version : Nat
  current : Bool
  /-- What stands between header and check. -/
  body : Bytes
  check : Nat
  deriving DecidableEq, Repr

namespace Section

def totalLength (s : Section) : Nat := 3 + s.length

/-- Reads the section at the start of `data`; what follows it is not looked at. -/
def parse (data : Bytes) : Except SectionFault Section :=
  match data with
  | id :: high :: low :: afterLength =>
    let length := high.toNat % 16 * 256 + low.toNat
    let longForm := decide (128 ≤ high.toNat)
    let checked := slice data (length - 1) (3 + length)
    if length < 5 then .error .smallLength
    else if data.length < 3 + length then .error .incomplete
    else if !longForm then
      .ok {
        tableId := id.toNat, longForm, length, extension := 0, version := 0, current := true
        body := slice data 3 (length - 1), check := bigEndian checked
      }
    else if length < 9 then .error .shortExtendedHeader
    else match afterLength with
      | extensionHigh :: extensionLow :: flags :: _ =>
        .ok {
          tableId := id.toNat, longForm, length
          extension := extensionHigh.toNat * 256 + extensionLow.toNat
          version := flags.toNat / 2 % 32
          current := decide (flags.toNat % 2 = 1)
          body := slice data 8 (length - 1), check := bigEndian checked
        }
      | _ => .error .incomplete
  | _ => .error .shortHeader

/-- Whether the check that was read agrees with the bytes it was read from. -/
def verifies (s : Section) (data : Bytes) : Bool :=
  decide (s.totalLength ≤ data.length) &&
    decide ((Checksum.crc32 (data.take (s.totalLength - 4))).toNat = s.check)

/-- The largest body that a 12-bit length can count. -/
def maxBodyLength : Nat := 4086

/-- A long-form section, current, first and last of its table. Only the low twelve bits of
the length are written. -/
def encode (tableId extension version : Nat) (body : Bytes) : Bytes :=
  let length := 5 + body.length + 4
  let unchecked :=
    UInt8.ofNat tableId :: UInt8.ofNat (0xB0 + length / 256 % 16) :: UInt8.ofNat length ::
      UInt8.ofNat (extension / 256) :: UInt8.ofNat extension ::
      UInt8.ofNat (0xC1 + version % 32 * 2) :: 0 :: 0 :: body
  unchecked ++ toBigEndian 4 (Checksum.crc32 unchecked).toNat

end Section

end MotionImagery.Transport
