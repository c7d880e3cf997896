import MotionImagery.Proofs.Access.Transport
import MotionImagery.Video.FrameType

/-!
The readers of elementary headers and of video units, with every access checked. The bits of
pictures are counted in a word, so a unit with pictures has to be short enough for that; nothing
else is asked of its bytes.
-/
namespace MotionImagery.Access
open Transport Video

/-- No more bytes than any byte string in memory can have. -/
def Addressable (data : Bytes) : Prop := data.length < 0x8000000000000000

/-- So few bytes that their bits can be counted in a word. -/
def Countable (data : Bytes) : Prop := data.length * 8 < wordSize

theorem Addressable.of_le {data part : Bytes} (addressable : Addressable data)
    (shorter : part.length ≤ data.length) : Addressable part :=
  Nat.lt_of_le_of_lt shorter addressable

/-- Offsets fit a word a little beyond the end, too. -/
theorem Addressable.fits {data : Bytes} (addressable : Addressable data) {offset : Nat}
    (near : offset ≤ data.length + 16) : offset < wordSize := by
  unfold Addressable at addressable
  rw [wordSize]
  omega

theorem Countable.addressable {data : Bytes} (countable : Countable data) : Addressable data := by
  unfold Countable wordSize at countable
  unfold Addressable
  omega

theorem Countable.of_le {data part : Bytes} (countable : Countable data)
    (shorter : part.length ≤ data.length) : Countable part :=
  Nat.lt_of_le_of_lt (Nat.mul_le_mul_right 8 shorter) countable

def parsePes (data : Bytes) : Access (Except PesFault PesHeader) := do
  if data.length < PesHeader.fixedSize then return .error .tooShort
  if (← range data 0 3) ≠ [0, 0, 1] then return .error .missingStartCode
  let header : PesHeader := {
    streamId := (← byteAt data 3).toNat
    packetLength := (← byteAt data 4).toNat * 256 + (← byteAt data 5).toNat
    optionalLength := (← byteAt data 8).toNat
    timestamp := none }
  if 128 ≤ (← byteAt data 7).toNat then
    if data.length < 14 then return .error .tooShortForTimestamp
    let field ← range data 9 14
    let timestamp := readTimestamp (← byteAt field 0) (← byteAt field 1) (← byteAt field 2)
      (← byteAt field 3) (← byteAt field 4)
    return .ok { header with timestamp := some timestamp }
  else return .ok header

theorem parsePes_eq (data : Bytes) : parsePes data = pure (PesHeader.parse data) := by
  unfold parsePes PesHeader.parse
  match data with
  | [] | [_] | [_, _] | [_, _, _] | [_, _, _, _] | [_, _, _, _, _] | [_, _, _, _, _, _]
  | [_, _, _, _, _, _, _] | [_, _, _, _, _, _, _, _] => rfl
  | zero :: zero' :: one :: streamId :: high :: low :: marker :: flags :: optional :: rest =>
    have present : ¬(zero :: zero' :: one :: streamId :: high :: low :: marker :: flags ::
        optional :: rest).length < PesHeader.fixedSize := by simp [PesHeader.fixedSize]
    have code : slice (zero :: zero' :: one :: streamId :: high :: low :: marker :: flags ::
        optional :: rest) 0 3 = [zero, zero', one] := rfl
    rw [if_neg present, range_eq (by omega) (by simp), pure_bind, code]
    simp only [byteAt_succ, byteAt_zero, pure_bind]
    by_cases started : zero = 0 ∧ zero' = 0 ∧ one = 1
    · rw [if_neg (not_not_intro started)]
      obtain ⟨rfl, rfl, rfl⟩ := started
      rw [if_neg (not_not_intro rfl)]
      by_cases timed : 128 ≤ flags.toNat
      · rw [if_pos timed, if_neg (Nat.not_lt_of_le timed)]
        match rest with
        | [] | [_] | [_, _] | [_, _, _] | [_, _, _, _] => rfl
        | a :: b :: c :: d :: e :: rest =>
          have present : ¬((0 : UInt8) :: 0 :: 1 :: streamId :: high :: low :: marker :: flags ::
              optional :: a :: b :: c :: d :: e :: rest).length < 14 := by simp
          have field : slice ((0 : UInt8) :: 0 :: 1 :: streamId :: high :: low :: marker ::
              flags :: optional :: a :: b :: c :: d :: e :: rest) 9 14 = [a, b, c, d, e] := rfl
          rw [if_neg present, range_eq (by omega) (by simp), pure_bind, field]
          simp only [byteAt_succ, byteAt_zero, pure_bind]
      · rw [if_neg timed, if_pos (Nat.lt_of_not_le timed)]
    · have other : [zero, zero', one] ≠ [0, 0, 1] := by simpa using started
      rw [if_pos other, if_pos started]

/-- The fields of a header are a byte and two. -/
theorem bounds_of_parsePes {data : Bytes} {header : PesHeader}
    (parsed : PesHeader.parse data = .ok header) :
    header.packetLength < 65536 ∧ header.optionalLength < 256 := by
  unfold PesHeader.parse at parsed
  split at parsed
  · rename_i high low _ _ optional _
    have := high.toNat_lt
    have := low.toNat_lt
    have := optional.toNat_lt
    have bounded : high.toNat * 256 + low.toNat < 65536 ∧ optional.toNat < 256 := by omega
    dsimp only at parsed
    split at parsed
    · cases parsed
    · split at parsed
      · cases parsed
        exact bounded
      · split at parsed
        · cases parsed
          exact bounded
        · cases parsed
  · cases parsed

theorem slice_min {data : Bytes} {start stop : Nat} :
    slice data start (min stop data.length) = slice data start stop := by
  have same : data.take (min stop data.length) = data.take stop := by
    rw [List.take_eq_take_iff]
    omega
  rw [slice, slice, same]

def payload (header : PesHeader) (data : Bytes) : Access Bytes := do
  let start ← word (PesHeader.fixedSize + header.optionalLength)
  let stated ← word (6 + header.packetLength)
  let stop := if header.packetLength = 0 then data.length else min stated data.length
  if stop ≤ start then return [] else range data start stop

theorem payload_eq {header : PesHeader} (length : header.packetLength < 65536)
    (optional : header.optionalLength < 256) (data : Bytes) :
    payload header data = pure (header.payload data) := by
  unfold payload PesHeader.payload PesHeader.payloadOffset
  have starts : PesHeader.fixedSize + header.optionalLength < wordSize := by
    rw [wordSize, PesHeader.fixedSize]
    omega
  have stops : 6 + header.packetLength < wordSize := by
    rw [wordSize]
    omega
  rw [word_eq starts, word_eq stops, pure_bind, pure_bind]
  generalize stop_eq : (if header.packetLength = 0 then data.length
    else min (6 + header.packetLength) data.length) = stop
  have inside : stop ≤ data.length := by
    subst stop
    split
    · exact Nat.le_refl _
    · exact Nat.min_le_right _ _
  have same : slice data (PesHeader.fixedSize + header.optionalLength)
      (if header.packetLength = 0 then data.length else 6 + header.packetLength) =
        slice data (PesHeader.fixedSize + header.optionalLength) stop := by
    subst stop
    split
    · rfl
    · exact slice_min.symm
  rw [same]
  by_cases empty : stop ≤ PesHeader.fixedSize + header.optionalLength
  · rw [if_pos empty, slice_eq_nil empty]
  · rw [if_neg empty, range_eq (Nat.le_of_not_le empty) inside]

theorem length_payload_le (header : PesHeader) (data : Bytes) :
    (header.payload data).length ≤ data.length := by
  rw [PesHeader.payload, slice, List.length_drop, List.length_take]
  omega

/-- The offsets behind the start codes from an offset on. -/
def startCodes (data : Bytes) (offset : Nat) : Access (List Nat) :=
  if offset + 3 ≤ data.length then do
    let window ← range data offset (offset + 3)
    let first ← byteAt window 0
    let second ← byteAt window 1
    let third ← byteAt window 2
    let behind ← word (offset + 3)
    let later ← startCodes data (offset + 1)
    return if first = 0 ∧ second = 0 ∧ third = 1 then behind :: later else later
  else return []
termination_by data.length - offset

theorem startCodes_cons (offset : Nat) (first second third : UInt8) (coded : Bytes) :
    Video.startCodes offset (first :: second :: third :: coded) =
      (if first = 0 ∧ second = 0 ∧ third = 1 then [(offset + 3, coded)] else []) ++
        Video.startCodes (offset + 1) (second :: third :: coded) := rfl

theorem startCodes_of_short {data : Bytes} (short : data.length < 3) (offset : Nat) :
    Video.startCodes offset data = [] := by
  match data, short with
  | [], _ | [_], _ | [_, _], _ => rfl

theorem startCodes_eq {data : Bytes} (addressable : Addressable data) (offset : Nat) :
    startCodes data offset =
      pure ((Video.startCodes offset (data.drop offset)).map Prod.fst) := by
  fun_induction startCodes data offset with
  | case1 offset inside ih =>
    have fits : offset + 3 < wordSize := addressable.fits (by omega)
    have window : slice data offset (offset + 3) =
        [data[offset], data[offset + 1], data[offset + 2]] := by
      rw [slice, List.drop_take, Nat.add_sub_cancel_left, List.drop_eq_getElem_cons (by omega),
        List.drop_eq_getElem_cons (by omega), List.drop_eq_getElem_cons (by omega)]
      rfl
    have rest : data.drop (offset + 1) =
        data[offset + 1] :: data[offset + 2] :: data.drop (offset + 3) := by
      rw [List.drop_eq_getElem_cons (by omega), List.drop_eq_getElem_cons (by omega)]
    rw [range_eq (Nat.le_add_right _ _) inside, pure_bind, window, ih,
      List.drop_eq_getElem_cons (show offset < data.length by omega), rest, startCodes_cons]
    simp only [byteAt_succ, byteAt_zero, pure_bind, word_eq fits, List.map_append]
    by_cases code : data[offset] = 0 ∧ data[offset + 1] = 0 ∧ data[offset + 2] = 1
    · rw [if_pos code, if_pos code]
      rfl
    · rw [if_neg code, if_neg code]
      rfl
  | case2 offset outside =>
    have short : (data.drop offset).length < 3 := by
      rw [List.length_drop]
      omega
    rw [startCodes_of_short short]
    rfl

/-- What follows a start code is what stands behind it. -/
theorem coded_eq_drop {rest : Bytes} {offset : Nat} {code : Nat × Bytes}
    (member : code ∈ Video.startCodes offset rest) :
    offset ≤ code.1 ∧ code.2 = rest.drop (code.1 - offset) := by
  induction rest generalizing offset with
  | nil => cases member
  | cons first rest ih =>
    unfold Video.startCodes at member
    obtain here | later := List.mem_append.mp member
    · split at here
      · split at here
        · obtain rfl := List.mem_singleton.mp here
          refine ⟨Nat.le_add_right _ _, ?_⟩
          rw [Nat.add_sub_cancel_left]
          rfl
        · cases here
      · cases here
    · obtain ⟨behind, coded⟩ := ih later
      refine ⟨by omega, ?_⟩
      rw [coded, show code.1 - offset = code.1 - (offset + 1) + 1 by omega, List.drop_succ_cons]

/-- How many bits are left. -/
def remaining (reader : Bits.Reader) : Access Nat := do
  return (← word (reader.bytes.length * 8)) - reader.position

def skip (reader : Bits.Reader) (count : Nat) : Access (Option Bits.Reader) := do
  if (← remaining reader) < count then return none
  return some { reader with position := ← word (reader.position + count) }

/-- The number that the next `count` bits add to those before them. -/
def bits (bytes : Bytes) : Nat → Nat → Nat → Access Nat
  | 0, _, number => return number
  | count + 1, position, number => do
    let byte ← byteAt bytes (position / 8)
    let next ← word (position + 1)
    bits bytes count next (number * 2 + (byte.toNat.testBit (7 - position % 8)).toNat)

def readBits (reader : Bits.Reader) (count : Nat) : Access (Option (Nat × Bits.Reader)) := do
  if Bits.Reader.widest < count ∨ (← remaining reader) < count then return none
  let number ← bits reader.bytes count reader.position 0
  return some (number, { reader with position := ← word (reader.position + count) })

theorem remaining_eq {reader : Bits.Reader} (countable : Countable reader.bytes) :
    remaining reader = pure reader.remaining := by
  rw [remaining, word_eq countable, pure_bind, Bits.Reader.remaining]

theorem skip_eq {reader : Bits.Reader} (countable : Countable reader.bytes)
    (inside : reader.position ≤ reader.bytes.length * 8) (count : Nat) :
    skip reader count = pure (reader.skip? count) := by
  unfold Countable at countable
  rw [skip, remaining_eq countable, pure_bind, Bits.Reader.skip?]
  by_cases few : reader.remaining < count
  · rw [if_pos few, if_neg (Nat.not_le_of_lt few)]
  · rw [if_neg few, if_pos (Nat.le_of_not_lt few)]
    unfold Bits.Reader.remaining at few
    rw [word_eq (by omega), pure_bind]
    rfl

theorem bits_eq {bytes : Bytes} (countable : Countable bytes) {count position : Nat}
    (inside : position + count ≤ bytes.length * 8) (number : Nat) :
    bits bytes count position number = pure (((List.range count).map fun i =>
      Bits.bitAt bytes (position + i)).foldl (fun number bit => number * 2 + bit.toNat) number) := by
  induction count generalizing position number with
  | zero => rfl
  | succ count ih =>
    unfold Countable at countable
    rw [bits, byteAt_eq (by omega), pure_bind, word_eq (by omega), pure_bind, ih (by omega),
      List.range_succ_eq_map, List.map_cons, List.map_map, List.foldl_cons]
    have first : Bits.bitAt bytes (position + 0) =
        bytes[position / 8].toNat.testBit (7 - position % 8) := by
      rw [Nat.add_zero, Bits.bitAt, List.getD_eq_getElem?_getD,
        List.getElem?_eq_getElem (by omega), Option.getD_some]
    have later : (fun i => Bits.bitAt bytes (position + i)) ∘ Nat.succ =
        fun i => Bits.bitAt bytes (position + 1 + i) := by
      funext i
      rw [Function.comp, Nat.succ_eq_add_one, Nat.add_right_comm, Nat.add_assoc]
    rw [first, later]

theorem readBits_eq {reader : Bits.Reader} (countable : Countable reader.bytes)
    (inside : reader.position ≤ reader.bytes.length * 8) (count : Nat) :
    readBits reader count = pure (reader.read? count) := by
  rw [readBits, remaining_eq countable, pure_bind, Bits.Reader.read?]
  by_cases refused : Bits.Reader.widest < count ∨ reader.remaining < count
  · rw [if_pos refused, if_neg (by omega)]
  · rw [if_neg refused, if_pos (by omega)]
    unfold Countable at countable
    unfold Bits.Reader.remaining at refused
    rw [bits_eq countable (by omega), pure_bind, word_eq (by omega), pure_bind]
    rfl

/-- The coding type in a picture header. -/
def codingType (header : Bytes) : Access (Option Nat) := do
  match ← skip (.ofBytes header) 10 with
  | none => return none
  | some reader => return (← readBits reader 3).map Prod.fst

theorem codingType_eq {header : Bytes} (countable : Countable header) :
    codingType header = pure (Mpeg2.codingType? header) := by
  unfold codingType Mpeg2.codingType?
  rw [skip_eq countable (Nat.zero_le _), pure_bind]
  cases skipped : (Bits.Reader.ofBytes header).skip? 10 with
  | none => rfl
  | some reader =>
    unfold Bits.Reader.skip? at skipped
    split at skipped
    · rename_i enough
      cases skipped
      unfold Bits.Reader.remaining at enough
      have inside : ((Bits.Reader.ofBytes header).advance 10).position ≤ header.length * 8 := by
        simp only [Bits.Reader.advance, Bits.Reader.ofBytes] at enough ⊢
        omega
      dsimp only
      rw [readBits_eq countable inside, pure_bind, Option.map_eq_bind]
      rfl
    · cases skipped

/-- The coding types of the pictures behind the start codes. -/
def codingTypes (data : Bytes) : List Nat → Access (Except ClassifyError (List Nat))
  | [] => return .ok []
  | offset :: rest =>
    if data[offset]? = some Mpeg2.pictureStartCode then do
      let header ← range data (← word (offset + 1)) data.length
      match ← codingType header with
      | none => return .error (.truncatedPicture offset)
      | some type => return (← codingTypes data rest).map (type :: ·)
    else codingTypes data rest

theorem codingTypes_eq {data : Bytes} (countable : Countable data) {codes : List (Nat × Bytes)}
    (coded : ∀ code ∈ codes, code.2 = data.drop code.1) :
    codingTypes data (codes.map Prod.fst) = pure (Mpeg2.codingTypes codes) := by
  induction codes with
  | nil => rfl
  | cons code rest ih =>
    obtain ⟨offset, behind⟩ := code
    obtain ⟨here, later⟩ := List.forall_mem_cons.mp coded
    dsimp only at here
    have ih := ih later
    have found : data[offset]? = behind.head? := by
      rw [here, List.head?_drop]
    rw [List.map_cons, codingTypes, found]
    cases behind with
    | nil =>
      rw [Mpeg2.codingTypes]
      exact ih
    | cons code header =>
      rw [Mpeg2.codingTypes]
      by_cases picture : code = Mpeg2.pictureStartCode
      · have inside : offset < data.length := by
          have size := congrArg List.length here
          rw [List.length_cons, List.length_drop] at size
          omega
        have same : slice data (offset + 1) data.length = header := by
          rw [slice, List.take_length, ← List.drop_drop, ← here]
          rfl
        have shorter : Countable header := by
          refine countable.of_le ?_
          rw [← same, slice, List.take_length, List.length_drop]
          omega
        have fits : offset + 1 < wordSize := countable.addressable.fits (by omega)
        have starts : (code :: header).head? = some Mpeg2.pictureStartCode :=
          congrArg some picture
        rw [if_pos picture, if_pos starts, word_eq fits, pure_bind,
          range_eq inside (Nat.le_refl _), pure_bind, same, codingType_eq shorter, pure_bind]
        cases Mpeg2.codingType? header with
        | none => rfl
        | some type =>
          dsimp only
          rw [ih]
          rfl
      · have differs : (code :: header).head? ≠ some Mpeg2.pictureStartCode :=
          fun same => picture (Option.some.inj same)
        rw [if_neg picture, if_neg differs, ih]

/-- Classifies a unit. -/
def classify (unit : ElementaryUnit) : Access (Except ClassifyError FrameType) := do
  match unit.kind with
  | .video codec =>
    match ← parsePes unit.data with
    | .error fault => return .error (.invalidPes fault)
    | .ok header =>
      let data ← payload header unit.data
      let codes ← startCodes data 0
      match codec with
      | .h264 =>
        return .ok (if codes.any fun offset =>
          data[offset]?.any fun header => decide (header.toNat % 32 = H264.idrSlice) then .idr
          else .nonIdr)
      | .mpeg2 =>
        return (← codingTypes data codes).map fun types =>
          if !types.isEmpty && types.all (· == Mpeg2.intraCoded) then .idr else .nonIdr
  | _ => return .ok .unknown

/-- **Classifying a unit never faults**, whatever its bytes are. -/
theorem classify_eq {unit : ElementaryUnit} (addressable : Addressable unit.data)
    (countable : unit.kind = .video .mpeg2 → Countable unit.data) :
    classify unit = pure (Video.classify unit) := by
  unfold classify Video.classify
  cases kind : unit.kind with
  | telemetry | other => rfl
  | video codec =>
    dsimp only
    rw [parsePes_eq, pure_bind]
    cases parsed : PesHeader.parse unit.data with
    | error fault => rfl
    | ok header =>
      obtain ⟨length, optional⟩ := bounds_of_parsePes parsed
      have part := length_payload_le header unit.data
      have shorter : Addressable (header.payload unit.data) := addressable.of_le part
      dsimp only
      rw [payload_eq length optional, pure_bind, startCodes_eq shorter, pure_bind, List.drop_zero]
      have coded : ∀ code ∈ Video.startCodes 0 (header.payload unit.data),
          code.2 = (header.payload unit.data).drop code.1 := by
        intro code member
        exact (coded_eq_drop member).2
      cases codec with
      | h264 =>
        have same : ((Video.startCodes 0 (header.payload unit.data)).map Prod.fst).any
            (fun offset => (header.payload unit.data)[offset]?.any fun header =>
              decide (header.toNat % 32 = H264.idrSlice)) =
            (Video.startCodes 0 (header.payload unit.data)).any fun code =>
              code.2.head?.any fun header => decide (header.toNat % 32 = H264.idrSlice) := by
          rw [List.any_map, Bool.eq_iff_iff, List.any_eq_true, List.any_eq_true]
          refine exists_congr fun code => and_congr_right fun member => ?_
          rw [coded code member, List.head?_drop]
          rfl
        dsimp only
        rw [same]
        rfl
      | mpeg2 =>
        dsimp only
        rw [codingTypes_eq ((countable kind).of_le part) coded]
        rfl

end MotionImagery.Access
