import MotionImagery.Proofs.Transport.Lane

/-!
What a lane gives out of packets that were sent one after the other. The units that are due of it
are what it holds and what the packets to come add to that; packets in order only move units from
those due to those given out, a repeated packet changes nothing, and a gap can only take units
away.
-/
namespace MotionImagery.Transport

/-- The counters run on from `counter`, and no packet announces a jump. -/
def Consecutive : Nat → List Packet → Prop
  | _, [] => True
  | counter, packet :: rest =>
    packet.header.counter = counter % 16 ∧ packet.isDiscontinuous = false ∧
      Consecutive (counter + 1) rest

theorem consecutive_packetsFrom (pid counter : Nat) (cells : List (Bool × Cell)) :
    Consecutive counter (packetsFrom pid counter cells) := by
  induction cells generalizing counter with
  | nil => trivial
  | cons cell rest ih =>
    refine ⟨rfl, ?_, ih (counter + 1)⟩
    simp only [Cell.packet, Packet.isDiscontinuous]
    cases cell.2.stuffing <;> rfl

theorem Consecutive.drop {counter : Nat} {missed rest : List Packet}
    (consecutive : Consecutive counter (missed ++ rest)) :
    Consecutive (counter + missed.length) rest := by
  induction missed generalizing counter with
  | nil => exact consecutive
  | cons packet missed ih =>
    have := ih consecutive.2.2
    rwa [List.length_cons, Nat.add_comm missed.length, ← Nat.add_assoc]

theorem gather_suffix (missed rest : List Packet) :
    (gather rest).2 <:+ (gather (missed ++ rest)).2 := by
  induction missed with
  | nil => exact List.suffix_rfl
  | cons packet missed ih =>
    simp only [List.cons_append, gather]
    split
    · exact ih.trans (List.suffix_cons _ _)
    · exact ih

/-- What is sent of `todo` after `last`: each in turn, and any of them again before the next. -/
inductive Resent {α : Type} : Option α → List α → List α → Prop
  | done (last : Option α) : Resent last [] []
  | again {x : α} {todo sent : List α} :
      Resent (some x) todo sent → Resent (some x) todo (x :: sent)
  | next {last : Option α} {x : α} {todo sent : List α} :
      Resent (some x) todo sent → Resent last (x :: todo) (x :: sent)

theorem Resent.once {α : Type} (last : Option α) (todo : List α) : Resent last todo todo := by
  induction todo generalizing last with
  | nil => exact .done last
  | cons x todo ih => exact .next (ih (some x))

theorem Resent.filterMap {α β : Type} {f : α → Option β} {last : Option α} {todo sent : List α}
    (resent : Resent last todo sent) (kept : ∀ x ∈ last, (f x).isSome)
    (all : ∀ x ∈ todo, (f x).isSome) :
    Resent (last.bind f) (todo.filterMap f) (sent.filterMap f) := by
  induction resent with
  | done => exact .done _
  | @again x todo sent _ ih =>
    obtain ⟨y, found⟩ := Option.isSome_iff_exists.mp (kept x rfl)
    have rest := ih kept all
    rw [Option.bind_some, found] at rest ⊢
    rw [List.filterMap_cons_some found]
    exact .again rest
  | @next last x todo sent _ ih =>
    obtain ⟨y, found⟩ := Option.isSome_iff_exists.mp (all x List.mem_cons_self)
    have rest := ih (by rintro _ ⟨⟩; simp [found])
      fun other member => all other (List.mem_cons_of_mem _ member)
    rw [Option.bind_some, found] at rest
    rw [List.filterMap_cons_some found, List.filterMap_cons_some found]
    exact .next rest

namespace Lane

/-- The units still to come out of the lane, when the packets to come all arrive. -/
def due (lane : Lane) (todo : List Packet) : List Bytes :=
  match lane.pending with
  | none => (gather todo).2
  | some data => (data ++ (gather todo).1) :: (gather todo).2

theorem due_empty (todo : List Packet) : empty.due todo = (gather todo).2 := rfl

/-- At the end only the unit in progress is due. -/
theorem due_nil (lane : Lane) : lane.due [] = lane.pending.toList := by
  unfold due
  cases lane.pending <;> simp [gather]

theorem gather_sublist_due (lane : Lane) (todo : List Packet) :
    (gather todo).2.Sublist (lane.due todo) := by
  unfold due
  cases lane.pending with
  | none => exact .refl _
  | some data => exact .cons _ (.refl _)

theorem accumulate_due (lane : Lane) (packet : Packet) (todo : List Packet) :
    (lane.accumulate packet).1.toList ++ (lane.accumulate packet).2.due todo =
      lane.due (packet :: todo) := by
  cases starts : packet.header.unitStart <;> cases pending : lane.pending <;>
    simp [accumulate, due, gather, starts, pending]

/-- The next packet in order has this counter. -/
def Expects (lane : Lane) (counter : Nat) : Prop :=
  ∀ last ∈ lane.counter, last < 16 ∧ (last + 1) % 16 = counter % 16

theorem read_inOrder {lane : Lane} {counter : Nat} {packet : Packet}
    (expects : lane.Expects counter) (next : packet.header.counter = counter % 16)
    (steady : packet.isDiscontinuous = false) :
    lane.continuity packet = .inOrder := by
  unfold continuity Continuity.between
  cases last : lane.counter with
  | none => rfl
  | some last' =>
    obtain ⟨small, follows⟩ := expects last' last
    simp only [steady, Bool.false_eq_true, ↓reduceIte]
    rw [if_neg (by omega), if_pos (by omega)]

/-- A run of one to fourteen missing packets is noticed. -/
theorem read_gap {lane : Lane} {counter missed last : Nat} {packet : Packet}
    (expects : lane.Expects counter) (counted : lane.counter = some last) (some_missed : missed ≠ 0)
    (few : missed ≤ 14) (next : packet.header.counter = (counter + missed) % 16)
    (steady : packet.isDiscontinuous = false) :
    ∃ lost, lane.continuity packet = .gap lost := by
  obtain ⟨small, follows⟩ := expects last counted
  unfold continuity Continuity.between
  simp only [counted, steady, Bool.false_eq_true, ↓reduceIte]
  rw [if_neg (by omega), if_neg (by omega)]
  exact ⟨_, rfl⟩

theorem accumulate_counter (lane : Lane) (packet : Packet) :
    (lane.accumulate packet).2.counter = lane.counter := by
  unfold accumulate
  split <;> rfl

theorem read_counter (lane : Lane) (packet : Packet) :
    (lane.read packet).2.counter = some packet.header.counter := by
  unfold read
  cases lane.continuity packet with
  | inOrder => exact accumulate_counter _ packet
  | duplicate => rfl
  | gap => exact accumulate_counter _ packet

theorem read_expects (lane : Lane) {packet : Packet} {counter : Nat}
    (counted : packet.header.counter = counter % 16) :
    (lane.read packet).2.Expects (counter + 1) := by
  intro last same
  rw [read_counter] at same
  obtain rfl := Option.some.inj same
  omega

/-- A packet in order only moves a unit from those due to those given out. -/
theorem read_due {lane : Lane} {packet : Packet} (follows : lane.continuity packet = .inOrder)
    (todo : List Packet) :
    (lane.read packet).1.toList ++ (lane.read packet).2.due todo = lane.due (packet :: todo) := by
  simp only [read, follows]
  exact accumulate_due _ packet todo

/-- A packet behind a gap completes nothing. -/
theorem read_behind_gap {lane : Lane} {packet : Packet} {lost : Nat}
    (follows : lane.continuity packet = .gap lost) (todo : List Packet) :
    (lane.read packet).1.toList ++ (lane.read packet).2.due todo = (gather (packet :: todo)).2 := by
  simp only [read, follows]
  exact accumulate_due _ packet todo

/-- A packet that comes again changes nothing. -/
theorem read_again {lane : Lane} {packet : Packet}
    (counted : lane.counter = some packet.header.counter)
    (steady : packet.isDiscontinuous = false) : lane.read packet = (none, lane) := by
  have again : lane.continuity packet = .duplicate := by
    simp [continuity, Continuity.between, counted, steady]
  simp only [read, again, ← counted]

/-- **Nothing lost, nothing changed.** When everything arrives, what is given out and what is
left in the lane are the units that were due. -/
theorem run_resent (lane : Lane) {counter : Nat} {last : Option Packet} {todo sent : List Packet}
    (resent : Resent last todo sent) (consecutive : Consecutive counter todo)
    (expects : lane.Expects counter)
    (latest : ∀ packet ∈ last,
      lane.counter = some packet.header.counter ∧ packet.isDiscontinuous = false) :
    lane.Gapless sent ∧ (lane.run sent).1 ++ (lane.run sent).2.due [] = lane.due todo := by
  induction resent generalizing lane counter with
  | done => exact ⟨trivial, rfl⟩
  | @again packet todo sent _ ih =>
    obtain ⟨counted, steady⟩ := latest packet rfl
    have repeated := read_again counted steady
    obtain ⟨gapless, units⟩ := ih lane consecutive expects latest
    refine ⟨⟨?_, by rwa [repeated]⟩, by simpa [run, repeated] using units⟩
    simp [missing, continuity, Continuity.between, counted, steady]
  | @next last packet todo sent _ ih =>
    obtain ⟨counted, steady, later⟩ := consecutive
    have follows := read_inOrder expects counted steady
    obtain ⟨gapless, units⟩ := ih _ later (lane.read_expects counted) (by
      rintro _ ⟨⟩
      exact ⟨lane.read_counter packet, steady⟩)
    refine ⟨⟨by simp [missing, follows], gapless⟩, ?_⟩
    simp only [run]
    rw [List.append_assoc, units, read_due follows]

theorem read_more {lane : Lane} {packet : Packet} (follows : lane.continuity packet = .inOrder)
    (more : packet.header.unitStart = false) :
    (lane.read packet).1 = none ∧ ((lane.read packet).2.pending = none ↔ lane.pending = none) := by
  simp [read, follows, accumulate, more]

theorem read_start {lane : Lane} {packet : Packet} (follows : lane.continuity packet = .inOrder)
    (starts : packet.header.unitStart = true) :
    (lane.read packet).1 = lane.pending ∧
      (lane.read packet).2.pending = some packet.payload := by
  simp [read, follows, accumulate, starts]

/-- So many of the units have been started, and the packets to come bring what is left of them. -/
structure Progress (units : List Bytes) (counter started : Nat) (todo : List Packet) (lane : Lane) :
    Prop where
  consecutive : Consecutive counter todo
  expects : lane.Expects counter
  pending : lane.pending = none ↔ started = 0
  due : lane.due todo = units.drop (started - 1)

theorem Progress.started_le {units : List Bytes} {counter started : Nat} {todo : List Packet}
    {lane : Lane} (progress : Progress units counter started todo lane) :
    started ≤ units.length := by
  by_cases first : started = 0
  · omega
  · obtain ⟨data, held⟩ := Option.ne_none_iff_exists'.mp (mt progress.pending.mp first)
    have inhabited : (lane.due todo).length ≠ 0 := by simp [Lane.due, held]
    rw [progress.due, List.length_drop] at inhabited
    omega

/-- A start gives out the unit that was started before it. -/
theorem Progress.read {units : List Bytes} {counter started : Nat} {packet : Packet}
    {todo : List Packet} {lane : Lane}
    (progress : Progress units counter started (packet :: todo) lane) :
    Progress units (counter + 1) (started + packet.header.unitStart.toNat) todo
        (lane.read packet).2 ∧
      (lane.read packet).1 =
        if packet.header.unitStart = true ∧ started ≠ 0 then units[started - 1]? else none := by
  obtain ⟨⟨counted, steady, later⟩, expects, pending, due⟩ := progress
  have follows := read_inOrder expects counted steady
  have expects' := lane.read_expects counted
  have moved := read_due follows todo
  rw [due] at moved
  cases starts : packet.header.unitStart with
  | false =>
    obtain ⟨quiet, pending'⟩ := read_more follows starts
    rw [quiet] at moved
    exact ⟨⟨later, expects', pending'.trans pending, moved⟩, by simp [quiet]⟩
  | true =>
    obtain ⟨given, pending'⟩ := read_start follows starts
    rw [given] at moved
    by_cases first : started = 0
    · subst first
      have nothing : lane.pending = none := pending.mpr rfl
      rw [nothing] at moved
      exact ⟨⟨later, expects', by simp [pending'], moved⟩, by simp [given, nothing]⟩
    · obtain ⟨data, held⟩ := Option.ne_none_iff_exists'.mp (mt pending.mp first)
      obtain ⟨k, rfl⟩ := Nat.exists_eq_succ_of_ne_zero first
      rw [held, Nat.succ_sub_one] at moved
      have unit : units[k]? = some data := by
        rw [← List.head?_drop, ← moved]
        rfl
      have left : (lane.read packet).2.due todo = units.drop (k + 1) := by
        rw [← List.tail_drop, ← moved]
        rfl
      exact ⟨⟨later, expects', by simp [pending'], left⟩, by simp [given, held, unit]⟩

end Lane

end MotionImagery.Transport
