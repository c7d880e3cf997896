import MotionImagery.Output.Record
import MotionImagery.Proofs.Summary.Dates

/-!
The record of a stream against a single window over all of it. Taken in chunk by chunk, it names
the same begin and end as one window that is never closed. Its location is valid whenever it has
one, and once it has one it keeps one, whatever the chunks bring and however areas are united.
-/
namespace MotionImagery.Output
open Summary Telemetry

namespace StreamRecord
variable {unite : List Polygon → List Polygon → List Polygon} {name : String}
  {chunk attributes : Attributes} {earlier later : List Time.Instant}

/-- A chunk either leaves the location or replaces it by a valid one. -/
theorem updateLocation_cases (unite : List Polygon → List Polygon → List Polygon)
    (chunk attributes : Attributes) :
    updateLocation unite chunk attributes = attributes ∨ ∃ shape : Geometry,
      shape.isValid = true ∧ updateLocation unite chunk attributes =
        attributes.setSingle AttributeName.location (.geometry shape) := by
  cases merged : mergedLocation? unite attributes chunk with
  | none =>
    left
    rw [updateLocation, merged]
  | some shape =>
    by_cases valid : shape.isValid = true
    · right
      refine ⟨shape, valid, ?_⟩
      simp only [updateLocation, merged, if_pos valid]
    · left
      simp only [updateLocation, merged, if_neg valid]

theorem find?_updateLocation (other : name ≠ AttributeName.location) :
    Keyed.find? name (updateLocation unite chunk attributes) = Keyed.find? name attributes := by
  obtain same | ⟨shape, -, replaced⟩ := updateLocation_cases unite chunk attributes
  · rw [same]
  · rw [replaced, Attributes.find?_setSingle_of_ne other]

theorem find?_updateTimes (noStart : name ≠ AttributeName.temporalStart)
    (noStop : name ≠ AttributeName.temporalEnd) :
    Keyed.find? name (updateTimes chunk attributes) = Keyed.find? name attributes := by
  have begun (start : Option AttributeValue) :
      Keyed.find? name (start.elim attributes fun start =>
        attributes.setSingle AttributeName.temporalStart start) = Keyed.find? name attributes := by
    cases start with
    | none => rfl
    | some start => exact Attributes.find?_setSingle_of_ne noStart _ _
  rw [updateTimes]
  cases chunk.first? AttributeName.temporalEnd with
  | none =>
    dsimp only [Option.elim]
    split
    · rfl
    · exact begun _
  | some stop =>
    refine (Attributes.find?_setSingle_of_ne noStop _ _).trans ?_
    split
    · rfl
    · exact begun _

theorem find?_addChild (file : String) (other : name ≠ childrenName) :
    Keyed.find? name (addChild file attributes) = Keyed.find? name attributes :=
  Attributes.find?_set_of_ne other _ _

theorem first?_of_find? {date : Option Time.Instant}
    (found : Keyed.find? name attributes = date.map fun instant => [.date instant]) :
    attributes.first? name = date.map .date := by
  rw [Attributes.first?, found]
  cases date <;> rfl

/-- The begin is kept, the end is that of the last chunk that has one. -/
theorem spans_updateTimes (recorded : attributes.Spans earlier) (brought : chunk.Spans later) :
    (updateTimes chunk attributes).Spans (earlier ++ later) := by
  have start := first?_of_find? brought.start
  have stop := first?_of_find? brought.stop
  have known : Keyed.contains AttributeName.temporalStart attributes = !earlier.isEmpty := by
    rw [Keyed.contains, recorded.start]
    cases earlier <;> rfl
  rw [updateTimes, start, stop, known]
  cases later with
  | nil =>
    rw [List.append_nil]
    cases earlier <;> exact recorded
  | cons first rest =>
    have final : (first :: rest).getLast? = some (rest.getLast?.getD first) := List.getLast?_cons
    rw [final]
    constructor
    · refine (Attributes.find?_setSingle_of_ne (by decide) _ _).trans ?_
      cases earlier with
      | nil => exact (Keyed.find?_put ..).trans (if_pos rfl)
      | cons => exact recorded.start
    · refine (Keyed.find?_put ..).trans ((if_pos rfl).trans ?_)
      rw [List.getLast?_append, final]
      rfl

theorem getD_addChild (file : String) :
    (Keyed.find? childrenName (addChild file attributes)).getD [] =
      (Keyed.find? childrenName attributes).getD [] ++ [.text file] := by
  generalize earlier : (Keyed.find? childrenName attributes).getD [] = children
  rw [addChild, Attributes.set, earlier, if_neg (by simp), Keyed.find?_put, if_pos rfl]
  rfl

/-- A chunk's file comes behind the others. -/
theorem children_updateWith (file : String) (record : StreamRecord) :
    (Keyed.find? childrenName (record.updateWith unite file chunk).attributes).getD [] =
      (Keyed.find? childrenName record.attributes).getD [] ++ [.text file] := by
  have same : Keyed.find? childrenName
      (updateTimes chunk (updateLocation unite chunk record.attributes)) =
        Keyed.find? childrenName record.attributes :=
    (find?_updateTimes (by decide) (by decide)).trans (find?_updateLocation (by decide))
  rw [StreamRecord.updateWith, getD_addChild, same]

/-- The record of a stream whose telemetry has these instants and whose chunks went to these
files. -/
structure Agrees (instants : List Time.Instant) (files : List String) (record : StreamRecord) :
    Prop where
  spans : record.attributes.Spans instants
  chunks : record.chunks = files.length
  children : (Keyed.find? childrenName record.attributes).getD [] = files.map .text

theorem Agrees.updateWith {files : List String} {record : StreamRecord}
    (agrees : Agrees earlier files record) (brought : chunk.Spans later) (file : String) :
    Agrees (earlier ++ later) (files ++ [file]) (record.updateWith unite file chunk) := by
  have located : (updateLocation unite chunk record.attributes).Spans earlier :=
    ⟨(find?_updateLocation (by decide)).trans agrees.spans.start,
      (find?_updateLocation (by decide)).trans agrees.spans.stop⟩
  have timed := spans_updateTimes located brought
  refine ⟨⟨?_, ?_⟩, ?_, ?_⟩
  · exact (find?_addChild file (by decide)).trans timed.start
  · exact (find?_addChild file (by decide)).trans timed.stop
  · rw [StreamRecord.updateWith, agrees.chunks, List.length_append]
    rfl
  · rw [children_updateWith, agrees.children, List.map_append]
    rfl

/-- A location that is recorded is a single valid geometry. -/
def Located (attributes : Attributes) : Prop :=
  ∀ values, Keyed.find? AttributeName.location attributes = some values →
    ∃ shape, values = [.geometry shape] ∧ shape.isValid = true

theorem located_updateLocation (located : Located attributes) :
    Located (updateLocation unite chunk attributes) := by
  obtain same | ⟨shape, valid, replaced⟩ := updateLocation_cases unite chunk attributes
  · rw [same]
    exact located
  · intro values found
    rw [replaced, Attributes.setSingle, Keyed.find?_put, if_pos rfl] at found
    exact ⟨shape, (Option.some.inj found).symm, valid⟩

theorem contains_updateLocation
    (known : Keyed.contains AttributeName.location attributes = true) :
    Keyed.contains AttributeName.location (updateLocation unite chunk attributes) = true := by
  obtain same | ⟨shape, -, replaced⟩ := updateLocation_cases unite chunk attributes
  · rw [same]
    exact known
  · rw [replaced, Keyed.contains, Attributes.setSingle, Keyed.find?_put, if_pos rfl]
    rfl

/-- Only the merge changes the location. -/
theorem find?_location_updateWith (file : String) (record : StreamRecord) :
    Keyed.find? AttributeName.location (record.updateWith unite file chunk).attributes =
      Keyed.find? AttributeName.location (updateLocation unite chunk record.attributes) :=
  (find?_addChild file (by decide)).trans (find?_updateTimes (by decide) (by decide))

theorem located_updateWith {record : StreamRecord} (located : Located record.attributes)
    (file : String) : Located (record.updateWith unite file chunk).attributes := by
  intro values found
  rw [find?_location_updateWith] at found
  exact located_updateLocation located values found

theorem contains_updateWith {record : StreamRecord}
    (known : Keyed.contains AttributeName.location record.attributes = true) (file : String) :
    Keyed.contains AttributeName.location (record.updateWith unite file chunk).attributes =
      true := by
  rw [Keyed.contains, find?_location_updateWith]
  exact contains_updateLocation known

/-- Takes chunks in, one after the other. -/
def updateAll (unite : List Polygon → List Polygon → List Polygon)
    (chunks : List (String × Attributes)) (record : StreamRecord) : StreamRecord :=
  chunks.foldl (fun record chunk => record.updateWith unite chunk.1 chunk.2) record

theorem located_updateAll {chunks : List (String × Attributes)} {record : StreamRecord}
    (located : Located record.attributes) : Located (record.updateAll unite chunks).attributes := by
  induction chunks generalizing record with
  | nil => exact located
  | cons chunk rest ih => exact ih (located_updateWith located chunk.1)

theorem contains_updateAll {chunks : List (String × Attributes)} {record : StreamRecord}
    (known : Keyed.contains AttributeName.location record.attributes = true) :
    Keyed.contains AttributeName.location (record.updateAll unite chunks).attributes = true := by
  induction chunks generalizing record with
  | nil => exact known
  | cons chunk rest ih => exact ih (contains_updateWith known chunk.1)

end StreamRecord

/-- A part of a stream: the file of its chunk, and the units of its window with the settings that
the window was closed with. -/
structure Part where
  file : String
  units : List Fields
  settings : Settings

/-- The chunk that a part gives. -/
def Part.chunk (part : Part) : String × Attributes :=
  (part.file, ((Window.uasDatalink.collect part.units).finish part.settings).1)

namespace StreamRecord

/-- Parts add their instants and their files. -/
theorem agrees_updateAll {unite : List Polygon → List Polygon → List Polygon}
    {instants : List Time.Instant} {files : List String} {record : StreamRecord}
    (agrees : Agrees instants files record) (parts : List Part) :
    Agrees (instants ++ (parts.flatMap Part.units).flatMap timestamps)
      (files ++ parts.map Part.file) (record.updateAll unite (parts.map Part.chunk)) := by
  induction parts generalizing instants files record with
  | nil =>
    rw [List.map_nil, List.map_nil, List.append_nil, List.flatMap_nil, List.flatMap_nil,
      List.append_nil]
    exact agrees
  | cons part rest ih =>
    have brought : part.chunk.2.Spans (part.units.flatMap timestamps) :=
      Window.spans_finish part.units part.settings
    have updated : Agrees (instants ++ part.units.flatMap timestamps) (files ++ [part.file])
        (record.updateWith unite part.file part.chunk.2) := agrees.updateWith brought part.file
    have all := ih updated
    rw [List.append_assoc, List.append_assoc] at all
    rw [List.flatMap_cons, List.flatMap_append, List.map_cons, List.map_cons]
    exact all

/-- **The record agrees with one undivided window.** The parts of a stream leave the begin and the
end that all their units give in one window, as many chunks as there are parts, and their files in
order. Whatever chunks are taken in, a location is valid and does not go away again. -/
theorem record_agrees_with_one_window (unite : List Polygon → List Polygon → List Polygon)
    (name : String) (parts : List Part) (settings : Settings) :
    let stream := (new name).updateAll unite (parts.map Part.chunk)
    let units := parts.flatMap Part.units
    let whole := Derivation.derive (Window.uasDatalink.collect units).collectors settings
      (.dates FieldName.timestamp) []
    (∀ key ∈ [AttributeName.temporalStart, AttributeName.temporalEnd],
        Keyed.find? key stream.attributes = Keyed.find? key whole) ∧
      stream.attributes.Spans (units.flatMap timestamps) ∧
      stream.chunks = parts.length ∧
      (Keyed.find? childrenName stream.attributes).getD [] =
        parts.map (fun part => .text part.file) ∧
      ∀ before after : List (String × Attributes),
        let begun := (new name).updateAll unite before
        Located begun.attributes ∧
          (Keyed.contains AttributeName.location begun.attributes = true →
            Keyed.contains AttributeName.location
              ((new name).updateAll unite (before ++ after)).attributes = true) := by
  intro stream units whole
  have unset : Attributes.Spans [] [] := ⟨rfl, rfl⟩
  have started : Agrees [] [] (new name) := ⟨unset, rfl, rfl⟩
  have agrees : Agrees (units.flatMap timestamps) (parts.map Part.file) stream :=
    agrees_updateAll started parts
  have undivided : whole.Spans (units.flatMap timestamps) :=
    Derivation.spans_dates (Window.values_timestamp units) settings unset
  refine ⟨?_, agrees.spans, ?_, ?_, ?_⟩
  · intro key wanted
    obtain rfl | rfl : key = AttributeName.temporalStart ∨ key = AttributeName.temporalEnd := by
      simpa using wanted
    · exact agrees.spans.start.trans undivided.start.symm
    · exact agrees.spans.stop.trans undivided.stop.symm
  · rw [agrees.chunks, List.length_map]
  · rw [agrees.children, List.map_map]
    rfl
  · intro before after begun
    have located : Located (new name).attributes := nofun
    refine ⟨located_updateAll located, fun known => ?_⟩
    rw [updateAll, List.foldl_append]
    exact contains_updateAll known

/-- A first part without any date does not keep the second from giving the begin. -/
example :
    let told (micros : Nat) : Fields := [(FieldName.timestamp, .unsigned micros)]
    let parts : List Part :=
      [⟨"a.ts", [[]], .standard⟩, ⟨"b.ts", [told 7, told 8], .standard⟩, ⟨"c.ts", [], .standard⟩]
    let stream := (new "stream").updateAll unionAreas (parts.map Part.chunk)
    (stream.attributes.first? AttributeName.temporalStart).bind AttributeValue.date? =
        Time.Instant.ofMicros? 7 ∧
      (stream.attributes.first? AttributeName.temporalEnd).bind AttributeValue.date? =
        Time.Instant.ofMicros? 8 := by
  decide +kernel

end StreamRecord

end MotionImagery.Output
