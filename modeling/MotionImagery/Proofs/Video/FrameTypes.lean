import MotionImagery.Proofs.Video.StartCodes

/-!
The type of a frame against the coded units in it. One format is told by the first byte of each
unit; of the other one the pictures are read, and reading fails where the header of a picture is
cut short.
-/
namespace MotionImagery.Video
open Transport

/-- What stands behind each start code of a payload. -/
def behindCodes (payload : Bytes) : List Bytes := (startCodes 0 payload).map Prod.snd

namespace H264

theorem any_slice_iff {payload : Bytes} :
    ((startCodes 0 payload).any fun (_, coded) =>
      coded.head?.any fun header => decide (header.toNat % 32 = idrSlice)) = true ↔
      ∃ header, some header ∈ (behindCodes payload).map List.head? ∧
        header.toNat % 32 = idrSlice := by
  simp only [List.any_eq_true, Option.any_eq_true, decide_eq_true_eq, behindCodes,
    List.map_map, List.mem_map, Function.comp_apply]
  constructor
  · rintro ⟨code, member, header, first, five⟩
    exact ⟨header, ⟨code, member, first⟩, five⟩
  · rintro ⟨header, ⟨code, member, first⟩, five⟩
    exact ⟨code, member, header, first, five⟩

end H264

namespace Mpeg2

/-- A picture header that ends before its coding type. -/
def CutPicture (remainder : Bytes) : Prop :=
  ∃ header, remainder = pictureStartCode :: header ∧ header.length < 2

/-- The coding type of a picture, if this is one: the bits 5 to 3 of its third byte. -/
def pictureType? (remainder : Bytes) : Option Nat :=
  if remainder.head? = some pictureStartCode then
    remainder[2]?.map fun third => third.toNat / 8 % 8
  else none

theorem peek_codingType (second third : UInt8) (rest : Bytes) :
    ((Bits.Reader.ofBytes (second :: third :: rest)).advance 10).peek 3 =
      [third.toNat.testBit 5, third.toNat.testBit 4, third.toNat.testBit 3] := by
  simp [Bits.Reader.peek, Bits.Reader.advance, Bits.Reader.ofBytes, Bits.bitAt, List.range,
    List.range.loop]

theorem toNat_codingType (third : UInt8) :
    Bits.toNat [third.toNat.testBit 5, third.toNat.testBit 4, third.toNat.testBit 3] =
      third.toNat / 8 % 8 := by
  simp only [Bits.toNat, List.foldl_cons, List.foldl_nil, Nat.toNat_testBit]
  omega

theorem codingType?_eq (second third : UInt8) (rest : Bytes) :
    codingType? (second :: third :: rest) = some (third.toNat / 8 % 8) := by
  generalize start : Bits.Reader.ofBytes (second :: third :: rest) = reader
  have size : reader.remaining = (rest.length + 2) * 8 := by
    rw [← start]
    rfl
  have left : (reader.advance 10).remaining = (rest.length + 2) * 8 - 10 := by
    rw [← start]
    rfl
  have skipped : reader.skip? 10 = some (reader.advance 10) := if_pos (by omega)
  have read : (reader.advance 10).read? 3 =
      some (third.toNat / 8 % 8, (reader.advance 10).advance 3) := by
    rw [Bits.Reader.read?, if_pos ⟨by decide, by omega⟩, ← start, peek_codingType,
      toNat_codingType]
  rw [codingType?, start, skipped, Option.bind_eq_bind, Option.bind_some, read]
  rfl

theorem codingType?_eq_none {header : Bytes} (short : header.length < 2) :
    codingType? header = none := by
  have skipped : (Bits.Reader.ofBytes header).skip? 10 = none := by
    rw [Bits.Reader.skip?, if_neg]
    simp only [Bits.Reader.remaining, Bits.Reader.ofBytes]
    omega
  rw [codingType?, skipped]
  rfl

section Pictures
variable {offset : Nat} {remainder : Bytes} {rest : List (Nat × Bytes)}

theorem codingTypes_cut (cut : CutPicture remainder) :
    codingTypes ((offset, remainder) :: rest) = .error (.truncatedPicture offset) := by
  obtain ⟨header, rfl, short⟩ := cut
  rw [codingTypes, if_pos rfl, codingType?_eq_none short]

theorem codingTypes_whole (whole : ¬CutPicture remainder) :
    codingTypes ((offset, remainder) :: rest) =
      (codingTypes rest).map ((pictureType? remainder).toList ++ ·) := by
  have nothing : codingTypes rest = (codingTypes rest).map ([] ++ ·) := by
    cases codingTypes rest <;> rfl
  match remainder, whole with
  | [], _ => exact nothing
  | code :: header, whole =>
    by_cases picture : code = pictureStartCode
    · subst picture
      match header, whole with
      | [], whole | [_], whole => exact absurd ⟨_, rfl, by simp⟩ whole
      | second :: third :: header, _ =>
        rw [codingTypes, if_pos rfl, codingType?_eq]
        rfl
    · have other : pictureType? (code :: header) = none :=
        if_neg fun same => picture (Option.some.inj same)
      rw [codingTypes, if_neg picture, other]
      exact nothing

end Pictures

theorem codingTypes_of_whole {codes : List (Nat × Bytes)}
    (whole : ∀ code ∈ codes, ¬CutPicture code.2) :
    codingTypes codes = .ok ((codes.map Prod.snd).filterMap pictureType?) := by
  induction codes with
  | nil => rfl
  | cons code rest ih =>
    obtain ⟨here, there⟩ := List.forall_mem_cons.mp whole
    rw [codingTypes_whole here, ih there, List.map_cons, List.filterMap_cons]
    cases pictureType? code.2 <;> rfl

theorem codingTypes_of_cut {earlier later : List (Nat × Bytes)} {code : Nat × Bytes}
    (whole : ∀ code ∈ earlier, ¬CutPicture code.2) (cut : CutPicture code.2) :
    codingTypes (earlier ++ code :: later) = .error (.truncatedPicture code.1) := by
  induction earlier with
  | nil => exact codingTypes_cut cut
  | cons first earlier ih =>
    obtain ⟨here, there⟩ := List.forall_mem_cons.mp whole
    rw [List.cons_append, codingTypes_whole here, ih there]
    rfl

theorem exists_first_cut (codes : List (Nat × Bytes)) :
    (∀ code ∈ codes, ¬CutPicture code.2) ∨ ∃ earlier code later,
      codes = earlier ++ code :: later ∧ (∀ code ∈ earlier, ¬CutPicture code.2) ∧
        CutPicture code.2 := by
  induction codes with
  | nil => exact .inl nofun
  | cons code rest ih =>
    by_cases cut : CutPicture code.2
    · exact .inr ⟨[], code, rest, rfl, nofun, cut⟩
    · obtain whole | ⟨earlier, first, later, rfl, whole, found⟩ := ih
      · exact .inl (List.forall_mem_cons.mpr ⟨cut, whole⟩)
      · exact .inr ⟨code :: earlier, first, later, rfl, List.forall_mem_cons.mpr ⟨cut, whole⟩,
          found⟩

/-- At the offset stands a picture start code with less than two bytes behind it. -/
def CutAt (payload : Bytes) (offset : Nat) : Prop :=
  ∃ front header, payload = front ++ startCode ++ pictureStartCode :: header ∧
    header.length < 2 ∧ offset = front.length + 3

theorem cutAt_iff {payload : Bytes} {offset : Nat} :
    CutAt payload offset ↔ ∃ code ∈ startCodes 0 payload, code.1 = offset ∧ CutPicture code.2 := by
  constructor
  · rintro ⟨front, header, whole, short, rfl⟩
    refine ⟨(front.length + 3, pictureStartCode :: header), mem_startCodes.mpr ⟨front, whole, ?_⟩,
      rfl, header, rfl, short⟩
    rw [Nat.zero_add]
  · rintro ⟨code, member, rfl, header, picture, short⟩
    obtain ⟨front, whole, place⟩ := mem_startCodes.mp member
    rw [picture] at whole
    exact ⟨front, header, whole, short, by omega⟩

def FirstCutAt (payload : Bytes) (offset : Nat) : Prop :=
  CutAt payload offset ∧ ∀ other, CutAt payload other → offset ≤ other

theorem FirstCutAt.unique {payload : Bytes} {offset other : Nat}
    (first : FirstCutAt payload offset) (first' : FirstCutAt payload other) : offset = other :=
  Nat.le_antisymm (first.2 other first'.1) (first'.2 offset first.1)

/-- Start codes are met in the order in which they stand. -/
theorem firstCutAt_of_split {payload : Bytes} {earlier later : List (Nat × Bytes)}
    {code : Nat × Bytes} (split : startCodes 0 payload = earlier ++ code :: later)
    (whole : ∀ code ∈ earlier, ¬CutPicture code.2) (cut : CutPicture code.2) :
    FirstCutAt payload code.1 := by
  refine ⟨cutAt_iff.mpr ⟨code, by simp [split], rfl, cut⟩, fun other found => ?_⟩
  obtain ⟨code', member, rfl, cut'⟩ := cutAt_iff.mp found
  rw [split, List.mem_append, List.mem_cons] at member
  obtain before | rfl | behind := member
  · exact absurd cut' (whole code' before)
  · exact Nat.le_refl _
  · have ascending := pairwise_startCodes 0 payload
    rw [split, List.pairwise_append, List.pairwise_cons] at ascending
    exact Nat.le_of_lt (ascending.2.1.1 code' behind)

/-- Reading the pictures fails at the first one that is cut short, and only there. -/
theorem classify_eq_error_iff {payload : Bytes} {error : ClassifyError} :
    classify payload = .error error ↔
      ∃ offset, error = .truncatedPicture offset ∧ FirstCutAt payload offset := by
  obtain whole | ⟨earlier, code, later, split, whole, cut⟩ :=
    exists_first_cut (startCodes 0 payload)
  · rw [classify, codingTypes_of_whole whole]
    refine iff_of_false nofun ?_
    rintro ⟨offset, -, cut, -⟩
    obtain ⟨code, member, -, cut⟩ := cutAt_iff.mp cut
    exact whole code member cut
  · have first := firstCutAt_of_split split whole cut
    have failed : classify payload = .error (.truncatedPicture code.1) := by
      rw [classify, split, codingTypes_of_cut whole cut]
      rfl
    rw [failed]
    constructor
    · rintro ⟨⟩
      exact ⟨code.1, rfl, first⟩
    · rintro ⟨offset, rfl, first'⟩
      rw [first.unique first']

theorem classify_of_whole {payload : Bytes}
    (whole : ∀ remainder ∈ behindCodes payload, ¬CutPicture remainder) :
    classify payload = .ok (
      let types := (behindCodes payload).filterMap pictureType?
      if !types.isEmpty && types.all (· == intraCoded) then .idr else .nonIdr) := by
  rw [classify, codingTypes_of_whole fun code member => whole _ (List.mem_map_of_mem member)]
  rfl

end Mpeg2

/-! Payloads of coded units. -/

structure IsCoded (payload lead : Bytes) (units : List Bytes) : Prop where
  whole : payload = coded lead units
  lead_bare : Bare lead
  units_bare : ∀ unit ∈ units, Bare unit
  units_some : ∀ unit ∈ units, unit ≠ []

namespace IsCoded
variable {payload lead : Bytes} {units : List Bytes}

theorem behindCodes_eq (written : IsCoded payload lead units) :
    behindCodes payload = remainders units := by
  rw [behindCodes, written.whole]
  exact startCodes_coded written.lead_bare written.units_bare 0

theorem head?_coded {unit : Bytes} (some : unit ≠ []) (later : List Bytes) :
    (coded unit later).head? = unit.head? := by
  cases unit with
  | nil => exact absurd rfl some
  | cons => rfl

theorem map_head? (written : IsCoded payload lead units) :
    (behindCodes payload).map List.head? = units.map List.head? := by
  rw [written.behindCodes_eq]
  exact map_remainders fun unit member later => head?_coded (written.units_some unit member) later

end IsCoded

/-- A slice of a frame that decodes on its own, by the low five bits of its first byte. -/
def IsIdrSlice (unit : Bytes) : Prop := ∃ header ∈ unit.head?, header.toNat % 32 = 5

def IsPicture (unit : Bytes) : Prop := unit.head? = some 0x00

instance (unit : Bytes) : Decidable (IsPicture unit) :=
  inferInstanceAs (Decidable (unit.head? = some 0x00))

/-- The bits 5 to 3 of the third byte write one. -/
def IsIntra (picture : Bytes) : Prop := ∃ third ∈ picture[2]?, third.toNat / 8 % 8 = 1

namespace H264

theorem classify_coded {payload lead : Bytes} {units : List Bytes}
    (written : IsCoded payload lead units) :
    ∃ idr : Bool, classify payload = (if idr then .idr else .nonIdr) ∧
      (idr = true ↔ ∃ slice ∈ units, IsIdrSlice slice) := by
  refine ⟨_, rfl, any_slice_iff.trans ?_⟩
  rw [written.map_head?]
  constructor
  · rintro ⟨header, member, five⟩
    obtain ⟨slice, inside, first⟩ := List.mem_map.mp member
    exact ⟨slice, inside, header, first, five⟩
  · rintro ⟨slice, inside, header, first, five⟩
    exact ⟨header, List.mem_map.mpr ⟨slice, inside, first⟩, five⟩

end H264

namespace Mpeg2
variable {payload lead : Bytes} {units : List Bytes}

theorem pictureType?_coded {unit : Bytes} (some : unit ≠ [])
    (long : IsPicture unit → 3 ≤ unit.length) (later : List Bytes) :
    pictureType? (coded unit later) = pictureType? unit := by
  rw [pictureType?, pictureType?, IsCoded.head?_coded some]
  split
  · rename_i picture
    rw [coded, List.getElem?_append_left (long picture)]
  · rfl

theorem whole_of_coded (written : IsCoded payload lead units)
    (long : ∀ picture ∈ units, IsPicture picture → 3 ≤ picture.length) :
    ∀ remainder ∈ behindCodes payload, ¬CutPicture remainder := by
  intro remainder member
  rw [written.behindCodes_eq] at member
  obtain ⟨unit, inside, later, rfl⟩ := mem_remainders member
  rintro ⟨header, whole, short⟩
  have first := congrArg List.head? whole
  rw [IsCoded.head?_coded (written.units_some unit inside)] at first
  have size := congrArg List.length whole
  rw [coded, List.length_append, List.length_cons] at size
  have := long unit inside first
  omega

theorem pictureType?_eq_some_iff {unit : Bytes} {type : Nat} :
    pictureType? unit = some type ↔
      IsPicture unit ∧ ∃ third ∈ unit[2]?, third.toNat / 8 % 8 = type := by
  rw [pictureType?]
  split
  · rename_i picture
    rw [Option.map_eq_some_iff]
    exact (and_iff_right picture).symm
  · rename_i other
    exact iff_of_false nofun fun picture => other picture.1

/-- A picture that is long enough has a coding type. -/
theorem exists_type {picture : Bytes} (long : 3 ≤ picture.length) :
    ∃ third ∈ picture[2]?, ∃ type, third.toNat / 8 % 8 = type :=
  ⟨picture[2], List.getElem?_eq_getElem long, _, rfl⟩

theorem types_eq (written : IsCoded payload lead units)
    (long : ∀ picture ∈ units, IsPicture picture → 3 ≤ picture.length) :
    (behindCodes payload).filterMap pictureType? = units.filterMap pictureType? := by
  have same : (remainders units).map pictureType? = units.map pictureType? :=
    map_remainders fun unit member later =>
      pictureType?_coded (written.units_some unit member) (long unit member) later
  have kept := congrArg (List.filterMap id) same
  rw [List.filterMap_map, List.filterMap_map] at kept
  rw [written.behindCodes_eq]
  exact kept

theorem all_intra_iff (long : ∀ picture ∈ units, IsPicture picture → 3 ≤ picture.length) :
    (!(units.filterMap pictureType?).isEmpty &&
        (units.filterMap pictureType?).all (· == intraCoded)) = true ↔
      (∃ picture ∈ units, IsPicture picture) ∧
        ∀ picture ∈ units, IsPicture picture → IsIntra picture := by
  simp only [Bool.and_eq_true, Bool.not_eq_true', List.isEmpty_eq_false_iff_exists_mem,
    List.all_eq_true, List.mem_filterMap, pictureType?_eq_some_iff, beq_iff_eq]
  refine and_congr ⟨?_, ?_⟩ ⟨?_, ?_⟩
  · rintro ⟨type, picture, member, starts, -⟩
    exact ⟨picture, member, starts⟩
  · rintro ⟨picture, member, starts⟩
    obtain ⟨third, found, type, known⟩ := exists_type (long picture member starts)
    exact ⟨type, picture, member, starts, third, found, known⟩
  · intro all picture member starts
    obtain ⟨third, found, type, known⟩ := exists_type (long picture member starts)
    refine ⟨third, found, known.trans ?_⟩
    exact all type ⟨picture, member, starts, third, found, known⟩
  · rintro all type ⟨picture, member, starts, third, found, rfl⟩
    obtain ⟨third', found', one⟩ := all picture member starts
    obtain rfl : third = third' := Option.some.inj (found.symm.trans found')
    exact one

theorem classify_coded (written : IsCoded payload lead units)
    (long : ∀ picture ∈ units, IsPicture picture → 3 ≤ picture.length) :
    ∃ intra : Bool, classify payload = .ok (if intra then .idr else .nonIdr) ∧
      (intra = true ↔ (∃ picture ∈ units, IsPicture picture) ∧
        ∀ picture ∈ units, IsPicture picture → IsIntra picture) := by
  refine ⟨_, classify_of_whole (whole_of_coded written long), ?_⟩
  rw [types_eq written long]
  exact all_intra_iff long

theorem exists_cutAt_iff {payload : Bytes} :
    (∃ offset, CutAt payload offset) ↔ ∃ offset, FirstCutAt payload offset := by
  refine ⟨?_, fun ⟨offset, cut, _⟩ => ⟨offset, cut⟩⟩
  rintro ⟨offset, cut⟩
  obtain whole | ⟨earlier, code, later, split, whole, cut'⟩ :=
    exists_first_cut (startCodes 0 payload)
  · obtain ⟨code, member, -, cut⟩ := cutAt_iff.mp cut
    exact absurd cut (whole code member)
  · exact ⟨code.1, firstCutAt_of_split split whole cut'⟩

end Mpeg2

/-- An answer of two that is decided by a property tells whether it holds. -/
theorem answer_iff {answer : Except ClassifyError FrameType} {idr : Bool} {p : Prop}
    (given : answer = .ok (if idr then .idr else .nonIdr)) (decided : idr = true ↔ p) :
    (answer = .ok .idr ↔ p) ∧ (answer = .ok .nonIdr ↔ ¬p) := by
  rw [given, ← decided]
  cases idr <;> simp

/-- **A frame's type is that of its coded units.** For a payload of bare units behind start codes,
whatever bytes come first and whatever zeros the units end with, the answer hangs on the units
alone. Reading pictures fails for a payload in which the header of one is cut short, and for no
other, and the error names the first such place. -/
theorem frame_type_of_units {unit : ElementaryUnit} {header : PesHeader}
    (parsed : PesHeader.parse unit.data = .ok header) :
    (∀ {lead : Bytes} {units : List Bytes}, IsCoded (header.payload unit.data) lead units →
      (unit.kind = .video .h264 →
        (classify unit = .ok .idr ↔ ∃ slice ∈ units, IsIdrSlice slice) ∧
        (classify unit = .ok .nonIdr ↔ ¬∃ slice ∈ units, IsIdrSlice slice)) ∧
      (unit.kind = .video .mpeg2 →
        (∀ picture ∈ units, IsPicture picture → 3 ≤ picture.length) →
        let intra := (∃ picture ∈ units, IsPicture picture) ∧
          ∀ picture ∈ units, IsPicture picture → IsIntra picture
        (classify unit = .ok .idr ↔ intra) ∧ (classify unit = .ok .nonIdr ↔ ¬intra))) ∧
    (unit.kind = .video .mpeg2 →
      ((∃ error, classify unit = .error error) ↔
        ∃ offset, Mpeg2.CutAt (header.payload unit.data) offset) ∧
      ∀ error, classify unit = .error error ↔ ∃ offset,
        error = .truncatedPicture offset ∧ Mpeg2.FirstCutAt (header.payload unit.data) offset) := by
  have first (kind : unit.kind = .video .h264) :
      classify unit = .ok (H264.classify (header.payload unit.data)) := by
    rw [classify, kind, parsed]
  have second (kind : unit.kind = .video .mpeg2) :
      classify unit = Mpeg2.classify (header.payload unit.data) := by
    rw [classify, kind, parsed]
  refine ⟨fun {lead units} written => ⟨fun kind => ?_, fun kind long => ?_⟩, fun kind => ?_⟩
  · obtain ⟨idr, answer, decided⟩ := H264.classify_coded written
    exact answer_iff ((first kind).trans (congrArg _ answer)) decided
  · obtain ⟨intra, answer, decided⟩ := Mpeg2.classify_coded written long
    exact answer_iff ((second kind).trans answer) decided
  · rw [second kind, Mpeg2.exists_cutAt_iff]
    refine ⟨?_, fun error => Mpeg2.classify_eq_error_iff⟩
    simp only [Mpeg2.classify_eq_error_iff]
    constructor
    · rintro ⟨error, offset, -, cut⟩
      exact ⟨offset, cut⟩
    · rintro ⟨offset, cut⟩
      exact ⟨_, offset, rfl, cut⟩

namespace Sample

/-- A header without optional fields and with an open length. -/
def pesHeader : Bytes := [0x00, 0x00, 0x01, 0xE0, 0x00, 0x00, 0x80, 0x00, 0x00]

/-- Two units, the first of which ends with zeros. -/
def slices : List Bytes := [[0x67, 0x42, 0x00, 0x00], [0x65, 0x88]]

/-- A sequence header and two pictures, the second of which is predicted. -/
def pictures : List Bytes := [[0xB3, 0x14, 0x00], [0x00, 0x00, 0x08, 0x00], [0x00, 0x00, 0x10]]

def slicesUnit : ElementaryUnit := ⟨0x100, 0x1B, pesHeader ++ coded [0x00] slices⟩

def picturesUnit : ElementaryUnit := ⟨0x100, 0x02, pesHeader ++ coded [] pictures⟩

def cutUnit : ElementaryUnit := ⟨0x100, 0x02, pesHeader ++ coded [0xFF] [[0x00, 0x00]]⟩

/-- The header as it is read. -/
def header : PesHeader := ⟨0xE0, 0, 0, none⟩

end Sample

theorem sample_frame_types :
    classify Sample.slicesUnit = .ok .idr ∧ classify Sample.picturesUnit = .ok .nonIdr ∧
      classify Sample.cutUnit = .error (.truncatedPicture 4) := by
  refine ⟨?_, ?_, ?_⟩
  · have parsed : PesHeader.parse Sample.slicesUnit.data = .ok Sample.header := rfl
    have written : IsCoded (Sample.header.payload Sample.slicesUnit.data) [0x00] Sample.slices :=
      ⟨rfl, by decide, by decide, by decide⟩
    have told := ((frame_type_of_units parsed).1 written).1 rfl
    exact told.1.mpr ⟨[0x65, 0x88], by decide, 0x65, rfl, rfl⟩
  · have parsed : PesHeader.parse Sample.picturesUnit.data = .ok Sample.header := rfl
    have written : IsCoded (Sample.header.payload Sample.picturesUnit.data) [] Sample.pictures :=
      ⟨rfl, by decide, by decide, by decide⟩
    have told := ((frame_type_of_units parsed).1 written).2 rfl (by decide)
    refine told.2.mpr fun intra => ?_
    obtain ⟨third, found, one⟩ := intra.2 [0x00, 0x00, 0x10] (by decide) rfl
    cases found
    cases one
  · have parsed : PesHeader.parse Sample.cutUnit.data = .ok Sample.header := rfl
    have told := (frame_type_of_units parsed).2 rfl
    refine (told.2 _).mpr ⟨4, rfl, ⟨[0xFF], [0x00], rfl, by decide, rfl⟩, ?_⟩
    rintro other ⟨front, header, whole, -, rfl⟩
    cases front with
    | nil => cases whole
    | cons => exact Nat.le_add_left 4 _

end MotionImagery.Video
