import MotionImagery.Proofs.Summary.Dates
import MotionImagery.Proofs.Summary.Identifiers

/-!
The dates that counts of microseconds become. A count of 64 bits is read with a sign, so the greatest
ones give dates before the epoch; every other count is dated exactly, or not at all. Counts that do
not decrease give dates that do not decrease unless both kinds of counts are dated.
-/
namespace MotionImagery

namespace Time.Instant

/-- The date that a count of 64 bits is taken for. -/
def read? (count : Nat) : Option Instant := ofMicros? (AttributeValue.wrap count)

/-- The least count that is taken for a date before the epoch. -/
def misreadFrom : Nat := (0x10000000000000000 + microsOfDay (firstDay leastYear)).toNat

variable {count : Nat} {instant : Instant}

theorem ofMicros?_eq_some_iff {micros : Int} :
    ofMicros? micros = some instant ↔ instant = ⟨micros⟩ ∧
      microsOfDay (firstDay leastYear) ≤ micros ∧
      micros < microsOfDay (firstDay (greatestYear + 1)) := by
  rw [ofMicros?, Option.ite_none_right_eq_some, Option.some_inj, and_comm]
  exact and_congr_left fun _ => eq_comm

/-- A count of the lower half is read as it is. -/
theorem bmod_of_lt {modulus : Nat} (lower : count * 2 < modulus) :
    (count : Int).bmod modulus = count :=
  Int.bmod_eq_of_le_mul_two (by omega) (by omega)

theorem bmod_of_le {modulus : Nat} (upper : modulus ≤ count * 2) (word : count < modulus) :
    (count : Int).bmod modulus = count - modulus := by
  have same : ((count : Int) - modulus).bmod modulus = (count : Int).bmod modulus :=
    Int.sub_bmod_right ..
  rw [← same]
  exact Int.bmod_eq_of_le_mul_two (by omega) (by omega)

theorem leastMicros : microsOfDay (firstDay leastYear) = -8334601228800000000 := by decide

theorem greatestMicros : microsOfDay (firstDay (greatestYear + 1)) = 8210266876800000000 := by
  decide

theorem misreadFrom_eq : misreadFrom = 10112142844909551616 := by decide

/-- A count below is dated exactly, or not at all. -/
theorem read?_of_lt (below : count < misreadFrom) : read? count = ofMicros? count := by
  rw [misreadFrom_eq] at below
  by_cases lower : count * 2 < 0x10000000000000000
  · exact congrArg ofMicros? (bmod_of_lt lower)
  · have wrapped : AttributeValue.wrap count = count - 0x10000000000000000 :=
      bmod_of_le (by omega) (by omega)
    rw [read?, wrapped, ofMicros?, ofMicros?, leastMicros, greatestMicros, if_neg (by omega),
      if_neg (by omega)]

/-- A count from there on has no date, and is given one all the same. -/
theorem read?_of_le (above : misreadFrom ≤ count) (word : count < 0x10000000000000000) :
    ofMicros? count = none ∧ read? count = some ⟨count - 0x10000000000000000⟩ := by
  rw [misreadFrom_eq] at above
  have wrapped : AttributeValue.wrap count = count - 0x10000000000000000 :=
    bmod_of_le (by omega) word
  constructor
  · rw [ofMicros?, leastMicros, greatestMicros, if_neg (by omega)]
  · rw [read?, wrapped, ofMicros?, leastMicros, greatestMicros, if_pos (by omega)]

/-- The seconds and nanoseconds of a date are its microseconds, whether before the epoch or after. -/
theorem toMoment_exact (instant : Instant) :
    instant.toMoment.seconds * Moment.nanosPerSecond + instant.toMoment.nanos =
        instant.micros * 1000 ∧
      instant.toMoment.nanos < Moment.nanosPerSecond := by
  dsimp only [toMoment, microsPerSecond, Moment.nanosPerSecond]
  omega

/-- A date is its count, or a count that is misread. -/
theorem micros_of_read? (word : count < 0x10000000000000000) (read : read? count = some instant) :
    count < misreadFrom ∧ instant.micros = count ∨
      misreadFrom ≤ count ∧ instant.micros = count - 0x10000000000000000 := by
  by_cases below : count < misreadFrom
  · rw [read?_of_lt below] at read
    exact .inl ⟨below, congrArg micros (ofMicros?_eq_some_iff.mp read).1⟩
  · have above := Nat.le_of_not_lt below
    rw [(read?_of_le above word).2, Option.some_inj] at read
    exact .inr ⟨above, congrArg micros read.symm⟩

/-- No count is misread, or none has a date that can be written. -/
def Unmixed (counts : List Nat) : Prop :=
  (∀ count ∈ counts, count < misreadFrom) ∨ ∀ count ∈ counts, ofMicros? count = none

/-- Among items in order the first that tells anything stands before all others that do. -/
theorem exists_first {α β : Type} {relation : α → α → Prop} {told : α → Option β} {items : List α}
    (ordered : items.Pairwise relation) {first : β}
    (head : (items.filterMap told).head? = some first) {item : α} (member : item ∈ items)
    (tells : told item ≠ none) :
    ∃ earliest ∈ items, told earliest = some first ∧ (earliest = item ∨ relation earliest item) := by
  induction items with
  | nil => cases member
  | cons earliest rest ih =>
    obtain ⟨before, ordered⟩ := List.pairwise_cons.mp ordered
    cases here : told earliest with
    | some value =>
      rw [List.filterMap_cons_some here, List.head?_cons] at head
      refine ⟨earliest, List.mem_cons_self, here.trans head, ?_⟩
      obtain rfl | later := List.mem_cons.mp member
      · exact .inl rfl
      · exact .inr (before item later)
    | none =>
      rw [List.filterMap_cons_none here] at head
      obtain rfl | later := List.mem_cons.mp member
      · exact absurd here tells
      · obtain ⟨other, inside, told, related⟩ := ih ordered head later
        exact ⟨other, List.mem_cons_of_mem _ inside, told, related⟩

section
variable {counts : List Nat} (words : ∀ count ∈ counts, count < 0x10000000000000000)
  (ordered : counts.Pairwise (· ≤ ·))
include words ordered

/-- Dates of counts that are all exact, or all misread, are in the order of the counts. -/
theorem ordered_of_unmixed (unmixed : Unmixed counts) :
    (counts.filterMap read?).Pairwise fun earlier later => earlier.micros ≤ later.micros := by
  refine List.pairwise_filterMap.mpr (ordered.imp_of_mem fun {count other} member inside least => ?_)
  intro earlier read later read'
  have least : count ≤ other := least
  have dated := micros_of_read? (words count member) read
  have dated' := micros_of_read? (words other inside) read'
  obtain exact | dateless := unmixed
  · have := exact count member
    have := exact other inside
    omega
  · obtain ⟨below, -⟩ | ⟨above, same⟩ := dated
    · rw [read?_of_lt below, dateless count member] at read
      cases read
    · omega

/-- When one exact date and one misread count are there, the first date is after the last. -/
theorem unmixed_of_span (span : ∀ first ∈ (counts.filterMap read?).head?,
    ∀ last ∈ (counts.filterMap read?).getLast?, first.micros ≤ last.micros) : Unmixed counts := by
  by_contra mixed
  simp only [Unmixed, not_or, not_forall, Nat.not_lt] at mixed
  obtain ⟨⟨misread, inside, above⟩, exact, member, dated⟩ := mixed
  have read : read? misread ≠ none := by
    rw [(read?_of_le above (words misread inside)).2]
    exact Option.some_ne_none _
  have below : exact < misreadFrom := by
    by_contra above'
    exact dated (read?_of_le (Nat.le_of_not_lt above') (words exact member)).1
  have reversed : counts.reverse.Pairwise (· ≥ ·) := List.pairwise_reverse.mpr ordered
  cases first : (counts.filterMap read?).head? with
  | none =>
    rw [List.head?_eq_none_iff, List.filterMap_eq_nil_iff] at first
    exact read (first misread inside)
  | some start =>
    cases last : (counts.filterMap read?).getLast? with
    | none => simp [List.getLast?_eq_none_iff.mp last] at first
    | some stop =>
      obtain ⟨earliest, isEarliest, told, least⟩ :=
        exists_first ordered first member ((read?_of_lt below).trans_ne dated)
      rw [← List.head?_reverse, ← List.filterMap_reverse] at last
      obtain ⟨latest, isLatest, told', greatest⟩ :=
        exists_first reversed last (List.mem_reverse.mpr inside) read
      have dated := micros_of_read? (words earliest isEarliest) told
      have dated' := micros_of_read? (words latest (List.mem_reverse.mp isLatest)) told'
      have word := words latest (List.mem_reverse.mp isLatest)
      have := span start first stop (by rw [← List.head?_reverse, ← List.filterMap_reverse, last]; rfl)
      omega

end

end Time.Instant

namespace Summary
open Telemetry Time

theorem instant?_eq (value : Value) : instant? value = value.unsigned?.bind Instant.read? := rfl

theorem filterMap_unsigned (counts : List Nat) :
    (counts.map Value.unsigned).filterMap instant? = counts.filterMap Instant.read? := by
  rw [List.filterMap_map]
  refine List.filterMap_congr fun count _ => ?_
  rw [Function.comp, instant?_eq, Value.unsigned?, Option.bind_some]

/-- The counts that a unit gives under its timestamp. -/
def timestampCounts (unit : Fields) : List Nat :=
  (Value.underFields FieldName.timestamp unit).filterMap Value.unsigned?

theorem timestamps_eq (units : List Fields) :
    units.flatMap timestamps = (units.flatMap timestampCounts).filterMap Instant.read? := by
  rw [List.filterMap_flatMap]
  refine List.flatMap_congr fun unit _ => ?_
  rw [timestamps, timestampCounts, List.filterMap_filterMap]
  exact List.filterMap_congr fun value _ => instant?_eq value

namespace Window
variable {window : Window}

/-- A window that began takes units in as the first one does. -/
theorem Began.collectors_collect (began : Began window) (units : List Fields) :
    (window.collect units).collectors = (uasDatalink.collect units).collectors := by
  have same : ∀ first second : Window, first.collectors = second.collectors →
      first.derivesCorners = second.derivesCorners →
      (first.collect units).collectors = (second.collect units).collectors := by
    induction units with
    | nil => exact fun _ _ held _ => held
    | cons unit rest ih =>
      intro first second held derives
      refine ih (first.accept unit) (second.accept unit) ?_ derives
      rw [accept, accept, held, derives]
  exact same window uasDatalink began.unused.collectors began.holds.derives

/-- Every window of telemetry names the first and the last timestamp of its units. -/
theorem Began.spans (began : Began window) (units : List Fields) (settings : Settings) :
    ((window.collect units).finish settings).1.Spans (units.flatMap timestamps) := by
  obtain ⟨center, location, rule, same⟩ := began.exists_rules
  rw [finish, collect_derivation, same, began.collectors_collect]
  exact Derivation.spans_telemetry (values_timestamp units) (names_collect units) settings center
    location rule

end Window

end Summary

/-- The end is not before the start. -/
def Attributes.InOrder (attributes : Attributes) : Prop :=
  ∀ start stop, Keyed.find? AttributeName.temporalStart attributes = some [.date start] →
    Keyed.find? AttributeName.temporalEnd attributes = some [.date stop] →
      start.micros ≤ stop.micros

theorem Attributes.Spans.inOrder_iff {attributes : Attributes} {instants : List Time.Instant}
    (spans : attributes.Spans instants) :
    attributes.InOrder ↔ ∀ first ∈ instants.head?, ∀ last ∈ instants.getLast?,
      first.micros ≤ last.micros := by
  rw [InOrder, spans.start, spans.stop]
  constructor
  · intro ordered first isFirst last isLast
    exact ordered first last (by rw [isFirst]; rfl) (by rw [isLast]; rfl)
  · intro ordered start stop isStart isStop
    obtain ⟨first, isFirst, same⟩ := Option.map_eq_some_iff.mp isStart
    obtain ⟨last, isLast, same'⟩ := Option.map_eq_some_iff.mp isStop
    cases same
    cases same'
    exact ordered start isFirst stop isLast

namespace Summary
open Telemetry Time

/-- What becomes of counts of 64 bits that are taken for dates. -/
structure Dated (counts : List Nat) : Prop where
  /-- Each count adds the date it is read as, or nothing. -/
  stored : ∀ name field earlier,
    Collector.acceptAll field (counts.map .unsigned) ⟨name, .dates earlier⟩ =
      ⟨name, .dates (earlier ++ counts.filterMap Instant.read?)⟩
  /-- Exactly the counts below are read as they are. -/
  exact : ∀ count ∈ counts,
    Instant.read? count = Instant.ofMicros? count ↔ count < Instant.misreadFrom
  misread : ∀ count ∈ counts, Instant.misreadFrom ≤ count →
    Instant.ofMicros? count = none ∧ Instant.read? count = some ⟨count - 0x10000000000000000⟩
  /-- Seconds and nanoseconds are those of the microseconds. -/
  moments : ∀ instant ∈ counts.filterMap Instant.read?,
    instant.toMoment.seconds * Moment.nanosPerSecond + instant.toMoment.nanos =
        instant.micros * 1000 ∧
      instant.toMoment.nanos < Moment.nanosPerSecond
  ordered : counts.Pairwise (· ≤ ·) →
    ((counts.filterMap Instant.read?).Pairwise (fun earlier later =>
      earlier.micros ≤ later.micros) ↔ Instant.Unmixed counts)
  /-- The same of the attributes of every window in which units give the counts. -/
  spanned : counts.Pairwise (· ≤ ·) → ∀ (window : Window) (units : List Fields)
    (settings : Settings), window.Began → units.flatMap timestampCounts = counts →
      (((window.collect units).finish settings).1.InOrder ↔ Instant.Unmixed counts)

/-- **Dates of counts.** A count of 64 bits is dated exactly, or not at all, unless it is so great
that it is read as a time before the epoch. Dates of counts that do not decrease are in order, and
no window ends before it starts, exactly when no such date stands beside one of the others. -/
theorem dates_of_counts (counts : List Nat)
    (words : ∀ count ∈ counts, count < 0x10000000000000000) : Dated counts := by
  have head_le_last : ∀ instants : List Instant,
      instants.Pairwise (fun earlier later => earlier.micros ≤ later.micros) →
        ∀ first ∈ instants.head?, ∀ last ∈ instants.getLast?, first.micros ≤ last.micros := by
    intro instants pairs first isFirst last isLast
    obtain ⟨rest, rfl⟩ := List.head?_eq_some_iff.mp isFirst
    obtain rfl | later := List.mem_cons.mp (List.mem_of_getLast? isLast)
    · exact Int.le_refl _
    · exact List.rel_of_pairwise_cons pairs later
  constructor
  case stored =>
    intro name field earlier
    rw [Collector.acceptAll_dates, filterMap_unsigned]
  case exact =>
    intro count member
    refine ⟨fun same => ?_, Instant.read?_of_lt⟩
    by_contra above
    obtain ⟨dateless, read⟩ := Instant.read?_of_le (Nat.le_of_not_lt above) (words count member)
    rw [dateless, read] at same
    cases same
  case misread => exact fun count member above => Instant.read?_of_le above (words count member)
  case moments => exact fun instant _ => instant.toMoment_exact
  case ordered =>
    intro ordered
    refine ⟨fun pairs => ?_, Instant.ordered_of_unmixed words ordered⟩
    exact Instant.unmixed_of_span words ordered (head_le_last _ pairs)
  case spanned =>
    intro ordered window units settings began given
    have spans := began.spans units settings
    rw [timestamps_eq, given] at spans
    rw [spans.inOrder_iff]
    refine ⟨Instant.unmixed_of_span words ordered, fun unmixed => ?_⟩
    exact head_le_last _ (Instant.ordered_of_unmixed words ordered unmixed)

namespace Sample

/-- One second after the epoch, and a count too great for a date that is not misread either. -/
def counts : List Nat := [1000000, 9900000000000000000]

def counted : List Fields := counts.map fun count => [(FieldName.timestamp, .unsigned count)]

/-- A unit of one second after the epoch. -/
def early : Bytes := [
  0x00, 0x00, 0x01, 0xbd, 0x00, 0x22, 0x85, 0x00, 0x00,
  0x06, 0x0e, 0x2b, 0x34, 0x02, 0x0b, 0x01, 0x01, 0x0e, 0x01, 0x03, 0x01, 0x01, 0x00, 0x00, 0x00,
  0x0e, 0x02, 0x08, 0x00, 0x00, 0x00, 0x00, 0x00, 0x0f, 0x42, 0x40, 0x01, 0x02, 0xad, 0x95]

/-- A unit with the greatest count. -/
def greatest : Bytes := [
  0x00, 0x00, 0x01, 0xbd, 0x00, 0x22, 0x85, 0x00, 0x00,
  0x06, 0x0e, 0x2b, 0x34, 0x02, 0x0b, 0x01, 0x01, 0x0e, 0x01, 0x03, 0x01, 0x01, 0x00, 0x00, 0x00,
  0x0e, 0x02, 0x08, 0xff, 0xff, 0xff, 0xff, 0xff, 0xff, 0xff, 0xff, 0x01, 0x02, 0x5e, 0x4f]

end Sample

/-- The second count is passed over, so the window ends when it starts. -/
theorem sample_dates : (∀ count ∈ Sample.counts, count < 0x10000000000000000) ∧
    Sample.counts.filterMap Instant.read? = [⟨1000000⟩] ∧
    ((Window.uasDatalink.collect Sample.counted).finish .standard).1.InOrder := by
  have dated := dates_of_counts Sample.counts (by decide)
  have given : Sample.counted.flatMap timestampCounts = Sample.counts := by decide +kernel
  have spanned := dated.spanned (by decide) .uasDatalink Sample.counted .standard .first given
  exact ⟨by decide, by decide +kernel, spanned.mpr (.inl (by decide +kernel))⟩

/-- The greatest count has no date, and is taken for the microsecond before the epoch. -/
theorem ends_before_start :
    Instant.ofMicros? 0xffffffffffffffff = none ∧
    (Collector.dates AttributeName.timestamp).accept FieldName.timestamp
        (.unsigned 0xffffffffffffffff) = ⟨AttributeName.timestamp, .dates [⟨-1⟩]⟩ ∧
    ∃ units : List TelemetryUnit,
      (∀ unit ∈ units, ∃ pes, TelemetryUnit.decode Context.uasDatalink pes = .ok (some unit)) ∧
      (units.map (·.fields)).flatMap timestampCounts = [1000000, 0xffffffffffffffff] ∧
      let attributes := ((Window.uasDatalink.collect (units.map (·.fields))).finish .standard).1
      attributes.Spans [⟨1000000⟩, ⟨-1⟩] ∧ ¬ attributes.InOrder := by
  have read : [1000000, 0xffffffffffffffff].filterMap Instant.read? = [⟨1000000⟩, ⟨-1⟩] := by
    decide +kernel
  have seen : Sample.seen (fun unit => timestampCounts unit.fields) Sample.early =
      some [1000000] := by decide +kernel
  have seen' : Sample.seen (fun unit => timestampCounts unit.fields) Sample.greatest =
      some [0xffffffffffffffff] := by decide +kernel
  obtain ⟨first, decoded, counted⟩ := Sample.exists_unit seen
  obtain ⟨second, decoded', counted'⟩ := Sample.exists_unit seen'
  have given : ([first, second].map (·.fields)).flatMap timestampCounts =
      [1000000, 0xffffffffffffffff] := by
    rw [List.map_cons, List.map_singleton, List.flatMap_cons, List.flatMap_singleton, counted,
      counted']
    rfl
  refine ⟨by decide +kernel, ?_, [first, second], ?_, given, ?_⟩
  · have alone : [0xffffffffffffffff].filterMap Instant.read? = [⟨-1⟩] := by decide +kernel
    have taken := Collector.acceptAll_dates AttributeName.timestamp FieldName.timestamp []
      ([0xffffffffffffffff].map .unsigned)
    rwa [filterMap_unsigned, alone] at taken
  · exact List.forall_mem_cons.mpr ⟨⟨_, decoded⟩, List.forall_mem_singleton.mpr ⟨_, decoded'⟩⟩
  · have spans := Window.spans_finish ([first, second].map (·.fields)) .standard
    rw [timestamps_eq, given, read] at spans
    exact ⟨spans, fun ordered => absurd (ordered _ _ spans.start spans.stop) (by decide)⟩

end Summary
end MotionImagery
