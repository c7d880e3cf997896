import MotionImagery.Proofs.Access.Video
import MotionImagery.Telemetry.Unit

/-!
The readers of telemetry units, with every access checked. Lengths of up to eight bytes may say
more than there is, and more than can be added to an offset.
-/
namespace MotionImagery.Access
open Transport Telemetry

/-- The content of a unit and the time it belongs to. -/
def content (header : PesHeader) (payload : Bytes) : Access (Option (Bytes × Option Nat)) := do
  if header.streamId = PesHeader.metadataStream then
    if payload.length ≤ TelemetryUnit.cellHeaderLength then return none
    let stated := (← byteAt payload 3).toNat * 256 + (← byteAt payload 4).toNat
    let stop ← word (TelemetryUnit.cellHeaderLength + stated)
    let cell ← range payload TelemetryUnit.cellHeaderLength (min payload.length stop)
    return some (cell, header.timestamp)
  else return some (payload, none)

theorem content_eq (header : PesHeader) (payload : Bytes) :
    content header payload = pure (TelemetryUnit.content? header payload) := by
  unfold content TelemetryUnit.content?
  by_cases metadata : header.streamId = PesHeader.metadataStream
  · rw [if_pos metadata, if_pos metadata]
    match payload with
    | [] | [_] | [_, _] | [_, _, _] | [_, _, _, _] => rfl
    | [_, _, _, _, _] => rfl
    | a :: b :: c :: high :: low :: first :: rest =>
      have := high.toNat_lt
      have := low.toNat_lt
      have present : ¬(a :: b :: c :: high :: low :: first :: rest).length ≤
          TelemetryUnit.cellHeaderLength := by simp [TelemetryUnit.cellHeaderLength]
      have fits : TelemetryUnit.cellHeaderLength + (high.toNat * 256 + low.toNat) < wordSize := by
        rw [wordSize, TelemetryUnit.cellHeaderLength]
        omega
      have ordered : TelemetryUnit.cellHeaderLength ≤
          min (a :: b :: c :: high :: low :: first :: rest).length
            (TelemetryUnit.cellHeaderLength + (high.toNat * 256 + low.toNat)) :=
        Nat.le_min.mpr ⟨Nat.le_of_lt (Nat.lt_of_not_le present), Nat.le_add_right _ _⟩
      have cell : slice (a :: b :: c :: high :: low :: first :: rest)
          TelemetryUnit.cellHeaderLength
          (TelemetryUnit.cellHeaderLength + (high.toNat * 256 + low.toNat)) =
            (first :: rest).take (high.toNat * 256 + low.toNat) := by
        rw [slice, List.drop_take, Nat.add_sub_cancel_left]
        rfl
      rw [if_neg present]
      simp only [byteAt_succ, byteAt_zero, pure_bind, word_eq fits]
      rw [range_eq ordered (Nat.min_le_left _ _), pure_bind, Nat.min_comm, slice_min, cell]
      rfl
  · rw [if_neg metadata, if_neg metadata]

/-- The number of some bytes, computed in a word. -/
def number (bytes : Bytes) : Access Nat :=
  bytes.foldlM (fun number byte => word (number * 256 + byte.toNat)) 0

theorem number_eq {bytes : Bytes} (few : bytes.length ≤ longestLength) :
    number bytes = pure (bigEndian bytes) := by
  suffices every : ∀ (rest : Bytes) (read count : Nat), count < Nat.pow 256 read →
      read + rest.length ≤ longestLength →
      rest.foldlM (fun number byte => word (number * 256 + byte.toNat)) count =
        pure (rest.foldl (fun number byte => number * 256 + byte.toNat) count)
    from every bytes 0 0 Nat.zero_lt_one (by omega)
  intro rest
  induction rest with
  | nil =>
    intro read count _ _
    rfl
  | cons byte rest ih =>
    intro read count small few
    rw [List.length_cons, longestLength] at few
    have := byte.toNat_lt
    have next : count * 256 + byte.toNat < Nat.pow 256 (read + 1) := by
      rw [Nat.pow_eq, Nat.pow_succ]
      rw [Nat.pow_eq] at small
      omega
    have fits : count * 256 + byte.toNat < wordSize := by
      refine Nat.lt_of_lt_of_le next ?_
      exact Nat.pow_le_pow_right (by omega) (show read + 1 ≤ 8 by omega)
    rw [List.foldlM_cons, word_eq fits, pure_bind, List.foldl_cons]
    exact ih (read + 1) _ next (by rw [longestLength]; omega)

/-- The length field at an offset, and how many bytes it takes up. -/
def lengthField (data : Bytes) (offset : Nat) : Access (Except TelemetryError (Nat × Nat)) := do
  match data[offset]? with
  | none => return .error (.invalidLength offset)
  | some first =>
    if first.toNat < 0x80 then return .ok (first.toNat, 1)
    let count := first.toNat - 0x80
    if count = 0 ∨ longestLength < count then return .error (.invalidLength offset)
    let start ← word (offset + 1)
    let stop ← word (offset + 1 + count)
    if data.length < stop then return .error (.invalidLength offset)
    return .ok (← number (← range data start stop), 1 + count)

theorem lengthField_eq {data : Bytes} (addressable : Addressable data) (offset : Nat) :
    lengthField data offset = pure (readLengthAt data offset) := by
  unfold Addressable at addressable
  unfold lengthField readLengthAt readLength?
  rw [← List.head?_drop]
  cases at_offset : data.drop offset with
  | nil => rfl
  | cons first rest =>
    have size := congrArg List.length at_offset
    rw [List.length_cons, List.length_drop] at size
    have := first.toNat_lt
    dsimp only [List.head?_cons]
    by_cases short : first.toNat < 0x80
    · rw [if_pos short, if_pos short]
    · rw [if_neg short, if_neg short]
      generalize count_eq : first.toNat - 0x80 = count
      by_cases refused : count = 0 ∨ longestLength < count
      · rw [if_pos refused, if_pos (refused.imp_right .inl)]
      · have fits : offset + 1 + count < wordSize := by
          rw [wordSize]
          omega
        rw [if_neg refused, word_eq (by omega), pure_bind, word_eq fits, pure_bind]
        by_cases cut : data.length < offset + 1 + count
        · rw [if_pos cut, if_pos (.inr (.inr (by omega)))]
        · have written : slice data (offset + 1) (offset + 1 + count) = rest.take count := by
            rw [slice, List.drop_take, Nat.add_sub_cancel_left, ← List.drop_drop, at_offset]
            rfl
          have few : (rest.take count).length ≤ longestLength := by
            rw [List.length_take]
            omega
          rw [if_neg cut, if_neg (by omega), range_eq (Nat.le_add_right _ _) (by omega), pure_bind,
            written, number_eq few, pure_bind]

/-- The bytes of a range, of which there are as many as it is long. -/
def sizedRange (data : Bytes) (start stop : Nat) :
    Access { bytes : Bytes // bytes.length = stop - start } := do
  let ⟨there⟩ ← require (start ≤ stop ∧ stop ≤ data.length) .outOfRange
  return ⟨slice data start stop, length_slice there.2⟩

/-- How many bits the bytes of an integer have, computed in half a word. -/
def bitCount (width : Nat) : Access Nat := do
  let bits := width % 0x100000000 * 8
  let _ ← require (bits < 0x100000000) .overflow
  return bits

/-- The value of an element that is no nested set. Integers that stand for measures are shifted to
the end of a word and back, and their greatest value is made by a shift. -/
def scalar (decoder : Decoder) (bytes : Bytes) : Access (Option Value) := do
  match decoder with
  | .scaledSigned width _ _ =>
    if bytes.length = width then
      let bits ← bitCount width
      if bits < 64 then
        let shift ← difference 64 bits
        let _ ← require (shift < 64) .overflow
        let _ ← difference bits 1
    return decoder.scalar? bytes
  | .scaledUnsigned width _ _ =>
    if bytes.length = width then
      let _ ← bitCount width
    return decoder.scalar? bytes
  | _ => return decoder.scalar? bytes

mutual

/-- Whether integers that stand for measures have one to eight bytes, in nested sets too. -/
def narrow : Decoder → Bool
  | .scaledSigned width _ _ => decide (1 ≤ width ∧ width ≤ 8)
  | .scaledUnsigned width _ _ => decide (1 ≤ width ∧ width ≤ 8)
  | .set table => narrowTable table
  | .unsigned _ => true
  | .text => true
  | .bytes => true

def narrowTable : List (Nat × String × Decoder) → Bool
  | [] => true
  | (_, _, decoder) :: rest => narrow decoder && narrowTable rest

end

theorem scalar_eq {decoder : Decoder} (isNarrow : narrow decoder = true) (bytes : Bytes) :
    scalar decoder bytes = pure (decoder.scalar? bytes) := by
  have counted {width : Nat} (few : 1 ≤ width ∧ width ≤ 8) :
      bitCount width = pure (width * 8) := by
    have small : width % 0x100000000 = width := Nat.mod_eq_of_lt (by omega)
    rw [bitCount, small, require_eq (by omega), pure_bind]
  cases decoder with
  | unsigned | text | bytes | set => rfl
  | scaledUnsigned width low high =>
    have few : 1 ≤ width ∧ width ≤ 8 := of_decide_eq_true isNarrow
    unfold scalar
    dsimp only
    rw [counted few]
    split <;> rfl
  | scaledSigned width low high =>
    have few : 1 ≤ width ∧ width ≤ 8 := of_decide_eq_true isNarrow
    unfold scalar
    dsimp only
    rw [counted few, pure_bind]
    by_cases wide : bytes.length = width
    · rw [if_pos wide]
      by_cases short : width * 8 < 64
      · rw [if_pos short, difference_eq (by omega), pure_bind, require_eq (by omega), pure_bind,
          difference_eq (by omega), pure_bind]
      · rw [if_neg short]
    · rw [if_neg wide]

/-- The fields of the elements from an offset on, with those found before them. -/
def elements (table : FieldTable) (data : Bytes) (offset : Nat) (fields : Fields) :
    Access (Except TelemetryError Fields) := do
  if _before : offset < data.length then
    let tag ← byteAt data offset
    let _ ← word (offset + 1)
    match ← lengthField data (offset + 1) with
    | .error error => return .error error
    | .ok (length, size) =>
      let start := offset + 1 + size
      let _ ← word start
      if _inside : start + length < wordSize ∧ start + length ≤ data.length then
        let ⟨value, _sized⟩ ← sizedRange data start (start + length)
        match Keyed.find? tag.toNat table with
        | none => elements table data (start + length) fields
        | some (name, .set nested) =>
          match ← elements nested value 0 [] with
          | .error error => return .error error
          | .ok inner =>
            elements table data (start + length) (Keyed.put name (.set inner) fields)
        | some (name, decoder) =>
          match ← scalar decoder value with
          | none => elements table data (start + length) fields
          | some decoded => elements table data (start + length) (Keyed.put name decoded fields)
      else return .error (.truncated tag.toNat length (data.length - start))
  else return .ok fields
termination_by data.length - offset

theorem narrow_of_found {table : FieldTable} (isNarrow : narrowTable table = true) {tag : Nat}
    {name : String} {decoder : Decoder} (found : Keyed.find? tag table = some (name, decoder)) :
    narrow decoder = true := by
  induction table with
  | nil => cases found
  | cons entry rest ih =>
    obtain ⟨key, given, first⟩ := entry
    obtain ⟨here, later⟩ := (Bool.and_eq_true _ _).mp isNarrow
    rw [Keyed.find?] at found
    split at found
    · cases found
      exact here
    · exact ih later found

theorem sizedRange_eq {data : Bytes} {start stop : Nat} (ordered : start ≤ stop)
    (inside : stop ≤ data.length) :
    sizedRange data start stop = pure ⟨slice data start stop, length_slice inside⟩ := by
  rw [sizedRange, require_eq ⟨ordered, inside⟩, pure_bind]

/-- The elements from an offset on, with the first of them read by its place. -/
theorem parseElements_at (table : FieldTable) (fields : Fields) {data : Bytes} {offset : Nat}
    (before : offset < data.length) :
    LocalSet.parseElements table fields offset (data.drop offset) =
      match readLengthAt data (offset + 1) with
      | .error error => .error error
      | .ok (length, size) =>
        let stop := offset + 1 + size + length
        if data.length < stop then
          .error (.truncated data[offset].toNat length (data.length - (offset + 1 + size)))
        else
          let value := slice data (offset + 1 + size) stop
          match Keyed.find? data[offset].toNat table with
          | none => LocalSet.parseElements table fields stop (data.drop stop)
          | some (name, .set nested) =>
            match LocalSet.parseElements nested [] 0 value with
            | .error error => .error error
            | .ok inner => LocalSet.parseElements table (Keyed.put name (.set inner) fields) stop
                (data.drop stop)
          | some (name, decoder) =>
            match decoder.scalar? value with
            | none => LocalSet.parseElements table fields stop (data.drop stop)
            | some decoded =>
              LocalSet.parseElements table (Keyed.put name decoded fields) stop
                (data.drop stop) := by
  rw [List.drop_eq_getElem_cons before, LocalSet.parseElements, readLengthAt]
  split
  · rename_i unread
    rw [unread]
  · rename_i length size read
    have within := size_of_readLength? read
    rw [List.length_drop] at within
    have value : ((data.drop (offset + 1)).drop size).take length =
        slice data (offset + 1 + size) (offset + 1 + size + length) := by
      rw [slice, List.drop_take, Nat.add_sub_cancel_left, List.drop_drop]
    have rest : ((data.drop (offset + 1)).drop size).drop length =
        data.drop (offset + 1 + size + length) := by
      rw [List.drop_drop, List.drop_drop, ← Nat.add_assoc]
    have left : (data.drop (offset + 1)).length - size = data.length - (offset + 1 + size) := by
      rw [List.length_drop, Nat.sub_sub]
    rw [read, value, rest, left]
    dsimp only
    by_cases cut : data.length < offset + 1 + size + length
    · rw [if_pos cut, if_pos (by omega)]
    · refine (if_neg (by omega)).trans (Eq.trans ?_ (if_neg cut).symm)
      cases Keyed.find? data[offset].toNat table with
      | none => rfl
      | some entry =>
        obtain ⟨name, decoder⟩ := entry
        cases decoder <;> rfl

theorem size_of_readLengthAt {data : Bytes} {offset length size : Nat}
    (read : readLengthAt data offset = .ok (length, size)) : offset + size ≤ data.length := by
  unfold readLengthAt at read
  split at read
  · rename_i found
    cases read
    have within := size_of_readLength? found
    rw [List.length_drop] at within
    omega
  · cases read

theorem elements_eq {table : FieldTable} (isNarrow : narrowTable table = true) {data : Bytes}
    (addressable : Addressable data) {offset : Nat} (inside : offset ≤ data.length) (fields : Fields) :
    elements table data offset fields =
      pure (LocalSet.parseElements table fields offset (data.drop offset)) := by
  induction left : data.length - offset using Nat.strongRecOn
    generalizing table data offset fields with
  | ind size ih =>
    rw [elements]
    by_cases before : offset < data.length
    · have fits : offset + 1 < wordSize := addressable.fits (by omega)
      rw [dif_pos before, byteAt_eq before, pure_bind, word_eq fits, pure_bind,
        lengthField_eq addressable, pure_bind, parseElements_at table fields before]
      cases read : readLengthAt data (offset + 1) with
      | error error => rfl
      | ok field =>
        obtain ⟨length, size⟩ := field
        dsimp only
        have within := size_of_readLengthAt read
        have fits : offset + 1 + size < wordSize := addressable.fits (by omega)
        rw [word_eq fits, pure_bind]
        by_cases cut : data.length < offset + 1 + size + length
        · rw [if_pos cut, dif_neg (by omega)]
        · have whole : offset + 1 + size + length < wordSize ∧
              offset + 1 + size + length ≤ data.length :=
            ⟨addressable.fits (by omega), Nat.le_of_not_lt cut⟩
          rw [if_neg cut, dif_pos whole, sizedRange_eq (Nat.le_add_right _ _) whole.2, pure_bind]
          have next (later : Fields) : elements table data (offset + 1 + size + length) later =
              pure (LocalSet.parseElements table later (offset + 1 + size + length)
                (data.drop (offset + 1 + size + length))) :=
            ih _ (by omega) isNarrow addressable whole.2 later rfl
          have sized : (slice data (offset + 1 + size) (offset + 1 + size + length)).length =
              offset + 1 + size + length - (offset + 1 + size) := length_slice whole.2
          dsimp only
          generalize slice data (offset + 1 + size) (offset + 1 + size + length) = value at sized ⊢
          cases found : Keyed.find? data[offset].toNat table with
          | none => exact next fields
          | some entry =>
            obtain ⟨name, decoder⟩ := entry
            have isNarrow' := narrow_of_found isNarrow found
            cases decoder with
            | set nested =>
              have addressable' : Addressable value := addressable.of_le (by omega)
              have inner := ih _ (by omega) isNarrow' addressable' (Nat.zero_le _) [] rfl
              dsimp only
              rw [inner, pure_bind, List.drop_zero]
              cases LocalSet.parseElements nested [] 0 value with
              | error error => rfl
              | ok inner => exact next _
            | _ =>
              dsimp only
              rw [scalar_eq isNarrow', pure_bind]
              cases Decoder.scalar? _ value with
              | none => exact next fields
              | some decoded => exact next _
    · obtain rfl : offset = data.length := by omega
      rw [dif_neg before, List.drop_length, LocalSet.parseElements]

/-- Holds the checksum field against the sum of all bytes but the last two. -/
def checkSum (packet : Bytes) (fields : Fields) : Access (Except TelemetryError Fields) := do
  let covered ← range packet 0 (packet.length - 2)
  match (Keyed.find? FieldName.checksum fields).bind Value.unsigned? with
  | none => return .error .missingChecksum
  | some number =>
    let expected := number % 0x10000
    let actual := Checksum.octetSum covered % 0x10000
    return if expected = actual then .ok fields else .error (.checksumMismatch expected actual)

theorem checkSum_eq (packet : Bytes) (fields : Fields) :
    checkSum packet fields = pure (verifyChecksum packet fields) := by
  unfold checkSum verifyChecksum
  rw [range_eq (Nat.zero_le _) (Nat.sub_le _ _), pure_bind]
  cases (Keyed.find? FieldName.checksum fields).bind Value.unsigned? <;> rfl

/-- Looks for the wanted key from an offset on. -/
def decodeFrom (context : Context) (data : Bytes) (offset : Nat) :
    Access (Except TelemetryError Fields) := do
  let keyEnd := offset + Context.keyLength
  let _ ← word keyEnd
  if _before : keyEnd ≤ data.length then
    match ← lengthField data keyEnd with
    | .error error => return .error error
    | .ok (length, size) =>
      let start := keyEnd + size
      let _ ← word start
      if _inside : start + length < wordSize ∧ start + length ≤ data.length then
        if (← range data offset keyEnd) = context.key then
          let packet ← range data offset (start + length)
          match ← elements context.table (← range data start (start + length)) 0 [] with
          | .error error => return .error error
          | .ok fields => checkSum packet fields
        else decodeFrom context data (start + length)
      else return .error (.truncatedSet length (data.length - start))
  else return .error .missingLocalSet
termination_by data.length - offset
decreasing_by
  have : Context.keyLength = 16 := rfl
  omega

theorem slice_drop (data : Bytes) (offset start stop : Nat) :
    slice (data.drop offset) start stop = slice data (offset + start) (offset + stop) := by
  rw [slice, slice, List.take_drop, List.drop_drop]

theorem take_drop (data : Bytes) (offset count : Nat) :
    (data.drop offset).take count = slice data offset (offset + count) := by
  rw [slice, List.take_drop]

/-- The packets from an offset on, with the first of them read by its place. -/
theorem decodeFrom_at (context : Context) {data : Bytes} {offset : Nat}
    (before : offset + Context.keyLength ≤ data.length) :
    Telemetry.decodeFrom context offset (data.drop offset) =
      match readLengthAt data (offset + Context.keyLength) with
      | .error error => .error error
      | .ok (length, size) =>
        let start := offset + Context.keyLength + size
        let stop := start + length
        if data.length < stop then .error (.truncatedSet length (data.length - start))
        else if slice data offset (offset + Context.keyLength) = context.key then
          match LocalSet.parse context.table (slice data start stop) with
          | .error error => .error error
          | .ok fields => verifyChecksum (slice data offset stop) fields
        else Telemetry.decodeFrom context stop (data.drop stop) := by
  have enough : ¬(data.drop offset).length < Context.keyLength := by
    rw [List.length_drop]
    omega
  rw [Telemetry.decodeFrom, readLengthAt, if_neg enough, List.drop_drop]
  split
  · rename_i unread
    rw [unread]
  · rename_i length size read
    have within := size_of_readLength? read
    rw [List.length_drop] at within
    have left : (data.drop offset).length - Context.keyLength - size =
        data.length - (offset + Context.keyLength + size) := by
      rw [List.length_drop]
      omega
    have stop : offset + (Context.keyLength + size + length) =
        offset + Context.keyLength + size + length := by omega
    have next : offset + (Context.keyLength + size) + length =
        offset + Context.keyLength + size + length := by omega
    have body : slice (data.drop offset) (Context.keyLength + size)
        (Context.keyLength + size + length) = slice data (offset + Context.keyLength + size)
          (offset + Context.keyLength + size + length) := by
      rw [slice_drop, stop, ← Nat.add_assoc]
    rw [read, left]
    dsimp only
    rw [body, take_drop, take_drop, List.drop_drop, stop, next]
    by_cases cut : data.length < offset + Context.keyLength + size + length
    · rw [if_pos cut, if_pos (by omega)]
    · refine (if_neg (by omega)).trans (Eq.trans ?_ (if_neg cut).symm)
      cases LocalSet.parse context.table _ <;> rfl

theorem decodeFrom_eq {context : Context} (isNarrow : narrowTable context.table = true)
    {data : Bytes} (addressable : Addressable data) {offset : Nat} (inside : offset ≤ data.length) :
    decodeFrom context data offset =
      pure (Telemetry.decodeFrom context offset (data.drop offset)) := by
  induction left : data.length - offset using Nat.strongRecOn generalizing offset with
  | ind size ih =>
    have keyLength : Context.keyLength = 16 := rfl
    have fits : offset + Context.keyLength < wordSize := addressable.fits (by omega)
    rw [decodeFrom, word_eq fits, pure_bind]
    by_cases before : offset + Context.keyLength ≤ data.length
    · rw [dif_pos before, lengthField_eq addressable, pure_bind, decodeFrom_at context before]
      cases read : readLengthAt data (offset + Context.keyLength) with
      | error error => rfl
      | ok field =>
        obtain ⟨length, size⟩ := field
        have within := size_of_readLengthAt read
        have fits : offset + Context.keyLength + size < wordSize := addressable.fits (by omega)
        dsimp only
        rw [word_eq fits, pure_bind]
        by_cases cut : data.length < offset + Context.keyLength + size + length
        · rw [if_pos cut, dif_neg (by omega)]
        · have whole : offset + Context.keyLength + size + length < wordSize ∧
              offset + Context.keyLength + size + length ≤ data.length :=
            ⟨addressable.fits (by omega), Nat.le_of_not_lt cut⟩
          rw [if_neg cut, dif_pos whole, range_eq (Nat.le_add_right _ _) before, pure_bind]
          by_cases wanted : slice data offset (offset + Context.keyLength) = context.key
          · rw [if_pos wanted, if_pos wanted, range_eq (by omega) whole.2, pure_bind,
              range_eq (Nat.le_add_right _ _) whole.2, pure_bind]
            have shorter : Addressable (slice data (offset + Context.keyLength + size)
                (offset + Context.keyLength + size + length)) := by
              refine addressable.of_le ?_
              rw [length_slice whole.2]
              omega
            rw [elements_eq isNarrow shorter (Nat.zero_le _), pure_bind, List.drop_zero,
              LocalSet.parse]
            cases LocalSet.parseElements context.table [] 0 _ with
            | error error => rfl
            | ok fields => exact checkSum_eq _ fields
          · rw [if_neg wanted, if_neg wanted]
            exact ih _ (by omega) whole.2 rfl
    · rw [dif_neg before, Telemetry.decodeFrom, if_pos (by rw [List.length_drop]; omega)]

theorem length_of_content {header : PesHeader} {payload data : Bytes} {timestamp : Option Nat}
    (given : TelemetryUnit.content? header payload = some (data, timestamp)) :
    data.length ≤ payload.length := by
  unfold TelemetryUnit.content? at given
  split at given
  · obtain ⟨cell, found, same⟩ := Option.map_eq_some_iff.mp given
    cases same
    unfold TelemetryUnit.cellContent? at found
    split at found
    · split at found
      · cases found
      · cases found
        simp only [List.length_take, List.length_cons]
        omega
    · cases found
  · cases given
    exact Nat.le_refl _

/-- Decodes a unit. -/
def decode (context : Context) (pes : Bytes) :
    Access (Except TelemetryError (Option TelemetryUnit)) := do
  match ← parsePes pes with
  | .error fault => return .error (.invalidPes fault)
  | .ok header =>
    match ← content header (← payload header pes) with
    | none => return .ok none
    | some (data, timestamp) =>
      if data.length < Context.keyLength then return .ok none
      return (← decodeFrom context data 0).map fun fields => some ⟨fields, timestamp⟩

/-- **Decoding a unit never faults**, whatever its bytes are. -/
theorem decode_eq {context : Context} (isNarrow : narrowTable context.table = true) {pes : Bytes}
    (addressable : Addressable pes) :
    decode context pes = pure (TelemetryUnit.decode context pes) := by
  unfold decode TelemetryUnit.decode
  rw [parsePes_eq, pure_bind]
  cases parsed : PesHeader.parse pes with
  | error fault => rfl
  | ok header =>
    obtain ⟨length, optional⟩ := bounds_of_parsePes parsed
    dsimp only
    rw [payload_eq length optional, pure_bind, content_eq, pure_bind]
    cases given : TelemetryUnit.content? header (header.payload pes) with
    | none => rfl
    | some content =>
      obtain ⟨data, timestamp⟩ := content
      dsimp only
      by_cases short : data.length < Context.keyLength
      · rw [if_pos short, if_pos short]
      · have shorter : Addressable data :=
          addressable.of_le (Nat.le_trans (length_of_content given) (length_payload_le header pes))
        rw [if_neg short, if_neg short, decodeFrom_eq isNarrow shorter (Nat.zero_le _), pure_bind]
        rfl

theorem narrow_uasDatalink : narrowTable Context.uasDatalink.table = true := by
  decide +kernel

end MotionImagery.Access
