import MotionImagery.Transport.Packet

/-!
Units cut into packets. A cell is one packet's share of a unit together with what its packet
says besides; writing it and parsing what was written gives it back. Packets on one PID are put
together again at the packets that start a unit.
-/
namespace MotionImagery.Transport

/-- What a packet carries of a unit. The bits that no reader looks at are free, and so are the
stuffing bytes, as long as packet and payload end together. -/
structure Cell where
  priority : Bool
  scrambling : Fin 4
  /-- What follows the length byte of the adaptation field, if there is such a field. -/
  stuffing : Option Bytes
  payload : Bytes
  nonempty : payload ≠ []
  fills : 4 + stuffing.elim 0 (·.length + 1) + payload.length = packetSize
  continuous : ∀ flags ∈ stuffing.bind List.head?, flags.toNat < 128

namespace Cell

def adaptation (cell : Cell) : Bytes :=
  cell.stuffing.elim [] fun body => UInt8.ofNat body.length :: body

/-- One for a payload alone, three for a payload behind an adaptation field. -/
def control (cell : Cell) : Nat := if cell.stuffing.isSome then 3 else 1

/-- The packet that carries the cell on a PID. Counters run modulo 16. -/
def encode (cell : Cell) (pid : Nat) (unitStart : Bool) (counter : Nat) : Bytes :=
  syncByte :: UInt8.ofNat (unitStart.toNat * 64 + cell.priority.toNat * 32 + pid / 256) ::
    UInt8.ofNat pid :: UInt8.ofNat (cell.scrambling * 64 + cell.control * 16 + counter % 16) ::
    (cell.adaptation ++ cell.payload)

/-- What is read of that packet. -/
def packet (cell : Cell) (pid : Nat) (unitStart : Bool) (counter : Nat) : Packet where
  header := ⟨false, unitStart, pid, cell.control, counter % 16⟩
  discontinuity := cell.stuffing.map fun _ => false
  payload := cell.payload

/-- A payload that fits into a packet, stuffed when it does not fill it. -/
def ofPayload (payload : Bytes) (nonempty : payload ≠ []) (fits : payload.length ≤ 184) : Cell where
  priority := false
  scrambling := 0
  stuffing :=
    if payload.length = 184 then none
    else if payload.length = 183 then some []
    else some (0 :: List.replicate (182 - payload.length) 0xFF)
  payload
  nonempty
  fills := by
    by_cases full : payload.length = 184
    · simp [full, packetSize]
    · by_cases almost : payload.length = 183
      · simp [almost, packetSize]
      · simp [full, almost, packetSize]
        omega
  continuous := by
    intro flags member
    by_cases full : payload.length = 184
    · simp [full] at member
    · by_cases almost : payload.length = 183
      · simp [almost] at member
      · simp only [full, almost, ↓reduceIte, Option.bind_some, List.head?_cons,
          Option.mem_def, Option.some.injEq] at member
        subst member
        decide

theorem length_encode (cell : Cell) (pid : Nat) (unitStart : Bool) (counter : Nat) :
    (cell.encode pid unitStart counter).length = packetSize := by
  rw [← cell.fills]
  cases h : cell.stuffing <;>
    simp only [encode, adaptation, h, Option.elim_none, Option.elim_some, List.length_cons,
      List.length_append, List.length_nil] <;> omega

theorem header_encode (cell : Cell) {pid : Nat} (unitStart : Bool) (counter : Nat)
    (small : pid < 8192) :
    Header.ofBytes (UInt8.ofNat (unitStart.toNat * 64 + cell.priority.toNat * 32 + pid / 256))
        (UInt8.ofNat pid)
        (UInt8.ofNat (cell.scrambling * 64 + cell.control * 16 + counter % 16)) =
      (cell.packet pid unitStart counter).header := by
  have start := unitStart.toNat_lt
  have priority := cell.priority.toNat_lt
  have scrambling := cell.scrambling.isLt
  have control : cell.control < 4 := by unfold Cell.control; split <;> omega
  simp only [Header.ofBytes, packet, UInt8.toNat_ofNat', Header.mk.injEq, decide_eq_false_iff_not]
  refine ⟨by omega, ?_, by omega, by omega, by omega⟩
  cases unitStart <;> simp only [Bool.toNat_false, Bool.toNat_true] <;> simp <;> omega

theorem hasPayload_packet (cell : Cell) (pid : Nat) (unitStart : Bool) (counter : Nat) :
    (cell.packet pid unitStart counter).header.hasPayload = true := by
  simp only [packet, Header.hasPayload, control]
  split <;> rfl

theorem hasAdaptation_packet (cell : Cell) (pid : Nat) (unitStart : Bool) (counter : Nat) :
    (cell.packet pid unitStart counter).header.hasAdaptation = cell.stuffing.isSome := by
  simp only [packet, Header.hasAdaptation, control]
  by_cases field : cell.stuffing.isSome <;> simp [field]

theorem carriesPayload_packet (cell : Cell) (pid : Nat) (unitStart : Bool) (counter : Nat) :
    (cell.packet pid unitStart counter).carriesPayload = true := by
  rw [Packet.carriesPayload, hasPayload_packet]
  simp [packet, cell.nonempty]

/-- The flags byte is read only when the adaptation field is long enough to have one. -/
theorem discontinuity_encode (cell : Cell) {fieldLength flags : UInt8} {tail : Bytes}
    (split : cell.adaptation ++ cell.payload = fieldLength :: flags :: tail)
    (field : cell.stuffing.isSome) :
    (decide (0 < fieldLength.toNat) && decide (128 ≤ flags.toNat)) = false := by
  obtain ⟨body, stuffed⟩ := Option.isSome_iff_exists.mp field
  simp only [adaptation, stuffed, Option.elim_some, List.cons_append, List.cons.injEq] at split
  obtain ⟨rfl, split⟩ := split
  cases body with
  | nil => rfl
  | cons first more =>
    obtain ⟨rfl, -⟩ := List.cons.inj split
    have := cell.continuous first (by simp [stuffed])
    simp [this]

/-- The payload begins right behind the adaptation field. -/
theorem payloadOffset_encode (cell : Cell) {pid : Nat} {unitStart : Bool} {counter : Nat}
    {fieldLength flags : UInt8} {tail : Bytes}
    (split : cell.adaptation ++ cell.payload = fieldLength :: flags :: tail) :
    Packet.payloadOffset (cell.packet pid unitStart counter).header fieldLength =
      4 + cell.adaptation.length := by
  have fills := cell.fills
  rw [Packet.payloadOffset, hasAdaptation_packet]
  cases stuffed : cell.stuffing with
  | none => simp [adaptation, stuffed]
  | some body =>
    simp only [stuffed, Option.elim_some, packetSize] at fills
    simp only [adaptation, stuffed, Option.elim_some, List.cons_append, List.cons.injEq] at split
    obtain ⟨rfl, -⟩ := split
    simp only [Option.isSome_some, ↓reduceIte, adaptation, stuffed, Option.elim_some,
      List.length_cons, UInt8.toNat_ofNat']
    omega

theorem parse_encode (cell : Cell) {pid : Nat} (unitStart : Bool) (counter : Nat)
    (small : pid < 8192) :
    Packet.parse (cell.encode pid unitStart counter) = .ok (cell.packet pid unitStart counter) := by
  have whole := cell.length_encode pid unitStart counter
  have long : 2 ≤ (cell.adaptation ++ cell.payload).length := by
    simp only [encode, List.length_cons, packetSize] at whole
    omega
  obtain ⟨fieldLength, flags, tail, split⟩ : ∃ fieldLength flags tail,
      cell.adaptation ++ cell.payload = fieldLength :: flags :: tail := by
    match cell.adaptation ++ cell.payload, long with
    | fieldLength :: flags :: tail, _ => exact ⟨fieldLength, flags, tail, rfl⟩
  have payload : slice (cell.encode pid unitStart counter) (4 + cell.adaptation.length) packetSize =
      cell.payload := by
    rw [slice, List.take_of_length_le (Nat.le_of_eq whole), encode, Nat.add_comm]
    simp
  have discontinuity : (if cell.stuffing.isSome then
      some (decide (0 < fieldLength.toNat) && decide (128 ≤ flags.toNat)) else none) =
        cell.stuffing.map fun _ => false := by
    cases stuffed : cell.stuffing with
    | none => rfl
    | some body => simp [cell.discontinuity_encode split (by simp [stuffed])]
  have form := encode.eq_def cell pid unitStart counter
  rw [split] at form
  unfold Packet.parse
  rw [if_neg (by omega)]
  rw [form] at payload ⊢
  simp only [↓reduceIte, header_encode cell unitStart counter small, hasPayload_packet,
    hasAdaptation_packet, payloadOffset_encode cell split, payload, discontinuity]
  rfl

end Cell

/-- A unit in at least one cell. -/
structure CutUnit where
  first : Cell
  more : List Cell

namespace CutUnit

def bytes (unit : CutUnit) : Bytes := unit.first.payload ++ unit.more.flatMap Cell.payload

/-- The cells in order, and which of them starts the unit. -/
def marked (unit : CutUnit) : List (Bool × Cell) :=
  (true, unit.first) :: unit.more.map (false, ·)

end CutUnit

/-- Marked cells as packets on a PID, the counter running on from packet to packet. -/
def encodeFrom (pid : Nat) : Nat → List (Bool × Cell) → List Bytes
  | _, [] => []
  | counter, (start, cell) :: rest =>
    cell.encode pid start counter :: encodeFrom pid (counter + 1) rest

/-- What is read of those packets. -/
def packetsFrom (pid : Nat) : Nat → List (Bool × Cell) → List Packet
  | _, [] => []
  | counter, (start, cell) :: rest =>
    cell.packet pid start counter :: packetsFrom pid (counter + 1) rest

/-- Units one after the other on a PID, nothing left out and nothing repeated. -/
def packetize (pid counter : Nat) (units : List CutUnit) : List Bytes :=
  encodeFrom pid counter (units.flatMap CutUnit.marked)

/-- The payload in front of the first start, and the units from there on. -/
def gather : List Packet → Bytes × List Bytes
  | [] => ([], [])
  | packet :: rest =>
    let (lead, units) := gather rest
    if packet.header.unitStart then ([], (packet.payload ++ lead) :: units)
    else (packet.payload ++ lead, units)

theorem gather_more (pid counter : Nat) (more : List Cell) (rest : List (Bool × Cell)) :
    gather (packetsFrom pid counter (more.map (false, ·) ++ rest)) =
      let (lead, units) := gather (packetsFrom pid (counter + more.length) rest)
      (more.flatMap Cell.payload ++ lead, units) := by
  induction more generalizing counter with
  | nil => rfl
  | cons cell more ih =>
    simp only [List.map_cons, List.cons_append, packetsFrom, gather, Cell.packet, ih,
      List.length_cons, List.flatMap_cons, List.append_assoc, Bool.false_eq_true, ↓reduceIte]
    simp only [Nat.add_assoc, Nat.add_comm 1]

/-- Gathering undoes cutting. -/
theorem gather_units (pid counter : Nat) (units : List CutUnit) :
    gather (packetsFrom pid counter (units.flatMap CutUnit.marked)) =
      ([], units.map CutUnit.bytes) := by
  induction units generalizing counter with
  | nil => rfl
  | cons unit units ih =>
    simp only [List.flatMap_cons, CutUnit.marked, List.cons_append, packetsFrom, gather,
      gather_more, ih, Cell.packet, ↓reduceIte, List.append_nil, List.map_cons, CutUnit.bytes]

theorem unitStart_packetsFrom (pid counter : Nat) (cells : List (Bool × Cell)) :
    (packetsFrom pid counter cells).map (·.header.unitStart) = cells.map Prod.fst := by
  induction cells generalizing counter with
  | nil => rfl
  | cons cell rest ih => rw [packetsFrom, List.map_cons, ih, List.map_cons]; rfl

/-- Behind the start of a unit comes another start when the unit has no other cell. -/
theorem start_follows_start {units : List CutUnit} {before after : List Bool} {next : Bool}
    (marks : (units.flatMap CutUnit.marked).map Prod.fst = before ++ true :: next :: after) :
    next = true ↔ ∃ unit, units[before.count true]? = some unit ∧ unit.more = [] := by
  induction units generalizing before with
  | nil => simp at marks
  | cons unit units ih =>
    have cells : ((unit :: units).flatMap CutUnit.marked).map Prod.fst =
        true :: (List.replicate unit.more.length false ++
          (units.flatMap CutUnit.marked).map Prod.fst) := by
      simp [CutUnit.marked, Function.comp_def, List.map_const']
    rw [cells] at marks
    cases before with
    | nil =>
      obtain ⟨-, marks⟩ := List.cons.inj marks
      simp only [List.count_nil, List.getElem?_cons_zero, Option.some.injEq, exists_eq_left']
      cases more : unit.more with
      | nil =>
        rw [more, List.length_nil, List.replicate_zero, List.nil_append] at marks
        cases units with
        | nil => simp at marks
        | cons second rest =>
          obtain ⟨rfl, -⟩ := List.cons.inj marks
          simp
      | cons cell rest =>
        rw [more, List.length_cons, List.replicate_succ, List.cons_append] at marks
        obtain ⟨rfl, -⟩ := List.cons.inj marks
        simp
    | cons mark before =>
      obtain ⟨rfl, others⟩ := List.cons.inj marks
      -- A start is no further cell of this unit, so it stands among the marks of the others.
      obtain ⟨rest, rfl, later⟩ : ∃ rest, before = List.replicate unit.more.length false ++ rest ∧
          (units.flatMap CutUnit.marked).map Prod.fst = rest ++ true :: next :: after := by
        obtain ⟨rest, same, later⟩ | ⟨inner, within, later⟩ := List.append_eq_append_iff.mp others
        · exact ⟨rest, same, later⟩
        · cases inner with
          | nil => exact ⟨[], by simpa using within.symm, by simpa using later.symm⟩
          | cons first inner =>
            obtain ⟨rfl, -⟩ := List.cons.inj later
            have false_mark : true ∈ List.replicate unit.more.length false := by simp [within]
            simp at false_mark
      rw [ih later]
      simp [List.count_append, List.count_replicate]

end MotionImagery.Transport
