import MotionImagery.Text.Numeral
import MotionImagery.Transport.Packet
import MotionImagery.Transport.ProgramTable
import Std.Data.ExtTreeMap

/-!
Elementary units out of packets. The tables on the stream say which PIDs carry what; the payload
of each such PID is gathered until its next unit starts. A gap in a PID's counter discards the
unit in progress, so a unit is never given out with bytes missing.
-/
namespace MotionImagery.Transport

/-- Why a packet that should carry a table does not. -/
inductive TablePacketFault where
  | missingPayload
  | badSection (fault : SectionFault)
  | badTable (fault : TableFault)
  deriving DecidableEq, Repr

def TablePacketFault.message : TablePacketFault → String
  | missingPayload => "Missing section payload"
  | badSection fault => fault.message
  | badTable fault => fault.message

inductive DemuxError where
  | invalidPacket (fault : PacketFault)
  | invalidTable (pid : Nat) (fault : TablePacketFault)
  | emptyProgramList
  deriving DecidableEq, Repr

namespace DemuxError

def message : DemuxError → String
  | invalidPacket fault => "Invalid packet: " ++ fault.message
  | invalidTable pid fault => "Invalid table on PID 0x" ++ Text.hex4 pid ++ ": " ++ fault.message
  | emptyProgramList => "Program association table contains no programs"

/-- After such an error the stream cannot be read any further. -/
def isFatal (error : DemuxError) : Bool := decide (error = emptyProgramList)

end DemuxError

/-- A whole elementary packet, header included. -/
structure ElementaryUnit where
  pid : Nat
  streamType : Nat
  data : Bytes
  deriving DecidableEq, Repr

def ElementaryUnit.kind (unit : ElementaryUnit) : StreamKind := .ofType unit.streamType

/-- How a packet's counter follows the one before it on its PID. -/
inductive Continuity where
  | inOrder
  | duplicate
  | gap (missing : Nat)
  deriving DecidableEq, Repr

/-- Counters run modulo 16. The first one and an announced jump are always in order. -/
def Continuity.between (last : Option Nat) (counter : Nat) (discontinuous : Bool) : Continuity :=
  match last with
  | none => .inOrder
  | some last =>
    if discontinuous then .inOrder
    else if counter = last then .duplicate
    else if counter = (last + 1) % 16 then .inOrder
    else .gap ((counter + 15 - last) % 16)

structure Demux where
  /-- Whether a table section whose check fails is left aside. -/
  verifyCheck : Bool
  /-- The PIDs of the map tables that the last association table announced. -/
  mapPids : List Nat
  /-- The stream type of every elementary PID seen in a map table. -/
  streamTypes : Std.ExtTreeMap Nat Nat
  /-- The unit in progress on each PID. -/
  pending : Std.ExtTreeMap Nat Bytes
  /-- The last counter on each elementary PID. -/
  counters : Std.ExtTreeMap Nat Nat
  lostPackets : Nat

namespace Demux

def new (verifyCheck : Bool) : Demux := ⟨verifyCheck, [], ∅, ∅, ∅, 0⟩

def streamType? (d : Demux) (pid : Nat) : Option Nat := d.streamTypes[pid]?

def hasProgramTable (d : Demux) : Bool := !d.mapPids.isEmpty

/-- The section that a packet carries; none when its check fails and checks are verified. -/
def readSection (d : Demux) (packet : Packet) : Except DemuxError (Option Section) :=
  let pid := packet.header.pid
  match packet.sectionPayload? with
  | none => .error (.invalidTable pid .missingPayload)
  | some data =>
    match Section.parse data with
    | .error fault => .error (.invalidTable pid (.badSection fault))
    | .ok s => .ok (if d.verifyCheck && !s.verifies data then none else some s)

/-- The map PIDs of an association table replace those known before. -/
def readAssociation (d : Demux) (packet : Packet) : Except DemuxError Demux := do
  match ← d.readSection packet with
  | none => return d
  | some s =>
    match AssociationTable.ofSection s with
    | .error fault => .error (.invalidTable packet.header.pid (.badTable fault))
    | .ok table =>
      if table.programs.isEmpty then .error .emptyProgramList
      else return { d with mapPids := table.mapPids }

/-- The stream types of a map table are added to those known before. -/
def readMap (d : Demux) (packet : Packet) : Except DemuxError Demux := do
  match ← d.readSection packet with
  | none => return d
  | some s =>
    match MapTable.ofSection s with
    | .error fault => .error (.invalidTable packet.header.pid (.badTable fault))
    | .ok table =>
      let register := fun (types : Std.ExtTreeMap Nat Nat) (entry : StreamEntry) =>
        types.insert entry.pid entry.streamType
      return { d with streamTypes := table.streams.foldl register d.streamTypes }

/-- Adds a payload to the unit in progress. The start of a unit completes the one before it;
payload before the first start is dropped. -/
def accumulate (d : Demux) (streamType : Nat) (packet : Packet) : Option ElementaryUnit × Demux :=
  let pid := packet.header.pid
  let previous := d.pending[pid]?
  if packet.header.unitStart then
    (previous.map fun data => ⟨pid, streamType, data⟩,
      { d with pending := d.pending.insert pid packet.payload })
  else
    (none, match previous with
      | some data => { d with pending := d.pending.insert pid (data ++ packet.payload) }
      | none => d)

/-- Reads a payload packet of a registered PID. A repeated packet adds nothing. -/
def readPayload (d : Demux) (streamType : Nat) (packet : Packet) : Option ElementaryUnit × Demux :=
  let pid := packet.header.pid
  let counter := packet.header.counter
  let counted := { d with counters := d.counters.insert pid counter }
  match Continuity.between d.counters[pid]? counter packet.isDiscontinuous with
  | .inOrder => counted.accumulate streamType packet
  | .duplicate => (none, counted)
  | .gap missing =>
    let resumed := { counted with
      lostPackets := counted.lostPackets + missing
      pending := counted.pending.erase pid }
    resumed.accumulate streamType packet

/-- Reads a parsed packet. -/
def readPacket (d : Demux) (packet : Packet) : Except DemuxError (Option ElementaryUnit) × Demux :=
  let header := packet.header
  let tables (outcome : Except DemuxError Demux) :=
    match outcome with
    | .error fault => (.error fault, d)
    | .ok next => (.ok none, next)
  if header.transportError then
    (.ok none, { d with lostPackets := d.lostPackets + 1 })
  else if header.pid = AssociationTable.tablePid ∧ header.unitStart then
    tables (d.readAssociation packet)
  else if header.pid ∈ d.mapPids ∧ header.unitStart then
    tables (d.readMap packet)
  else match d.streamType? header.pid with
    | some streamType =>
      if packet.carriesPayload then
        let (unit, next) := d.readPayload streamType packet
        (.ok unit, next)
      else (.ok none, d)
    | none => (.ok none, d)

/-- Feeds one packet. At most one unit completes, for a unit is complete only when the next one
on its PID starts. -/
def read (d : Demux) (raw : Bytes) : Except DemuxError (Option ElementaryUnit) × Demux :=
  match Packet.parse raw with
  | .error fault => (.error (.invalidPacket fault), d)
  | .ok packet => d.readPacket packet

/-- Gives out every unit in progress, in ascending order of PID. -/
def flush (d : Demux) : List ElementaryUnit × Demux :=
  (d.pending.toList.filterMap fun (pid, data) =>
      (d.streamType? pid).map fun streamType => ⟨pid, streamType, data⟩,
    { d with pending := ∅ })

/-- Forgets tables, units in progress and counters; the count of lost packets goes on. -/
def reset (d : Demux) : Demux :=
  { d with mapPids := [], streamTypes := ∅, pending := ∅, counters := ∅ }

end Demux

end MotionImagery.Transport
