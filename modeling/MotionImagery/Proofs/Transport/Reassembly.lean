import MotionImagery.Proofs.Transport.Datagrams

/-!
What becomes of the bytes a reassembler is given. Each one is in a packet, held back, or skipped,
until a flush drops what is held back; and how many there are of each does not depend on where one
datagram ends and the next begins.
-/
namespace MotionImagery.Transport

theorem parse_of_framed {raw : Bytes} (framed : Framed raw) :
    ∃ packet, Packet.parse raw = .ok packet := by
  obtain ⟨whole, synced⟩ := framed
  unfold Packet.parse
  rw [if_neg (Nat.not_lt_of_le (Nat.le_of_eq whole.symm))]
  match raw, whole, synced with
  | [], whole, _ | [_], whole, _ | [_, _], whole, _ | [_, _, _], whole, _ | [_, _, _, _], whole, _
  | [_, _, _, _, _], whole, _ => simp [packetSize] at whole
  | sync :: first :: second :: third :: length :: flags :: rest, _, synced =>
    have synced : sync = syncByte := Option.some.inj synced
    dsimp only
    rw [if_pos synced]
    exact ⟨_, rfl⟩

namespace Split

/-- What has been aligned is empty or begins with the sync byte. -/
theorem align_synced (data : Bytes) : align data = [] ∨ (align data).head? = some syncByte := by
  have first := List.head?_dropWhile_not (· ≠ syncByte) data
  rw [← align] at first
  cases aligned : align data with
  | nil => exact .inl rfl
  | cons byte rest => exact .inr (by simpa [aligned] using first)

theorem align_of_not_mem {garbage : Bytes} (clean : syncByte ∉ garbage) (later : Bytes) :
    align (garbage ++ later) = align later := by
  apply align_append_of_nil
  induction garbage with
  | nil => rfl
  | cons first rest ih =>
    obtain ⟨other, clean⟩ := not_or.mp (mt List.mem_cons.mpr clean)
    rw [align, List.dropWhile_cons_of_pos (by simpa using Ne.symm other)]
    exact ih clean

theorem framed_of_mem {data packet : Bytes} (member : packet ∈ (ofBytes data).packets) :
    Framed packet := by
  fun_induction ofBytes data with
  | case1 data short => simp at member
  | case2 data long rest ih =>
    have enough : packetSize ≤ (align data).length := Nat.le_of_not_lt long
    obtain rfl | later := List.mem_cons.mp member
    · refine ⟨by rw [List.length_take, Nat.min_eq_left enough], ?_⟩
      obtain nothing | synced := align_synced data
      · simp [nothing, packetSize] at enough
      · rw [List.head?_take, if_neg (by decide), synced]
    · exact ih later

/-- Each byte is in a packet, held back, or skipped. -/
theorem account (data : Bytes) :
    (ofBytes data).skipped + packetSize * (ofBytes data).packets.length +
      (ofBytes data).heldBack.length = data.length := by
  fun_induction ofBytes data with
  | case1 data short =>
    have := length_align_le data
    simp only [List.length_nil]
    omega
  | case2 data long rest ih =>
    have enough : packetSize ≤ (align data).length := Nat.le_of_not_lt long
    have := length_align_le data
    have ih : rest.skipped + packetSize * rest.packets.length + rest.heldBack.length =
        (align data).length - packetSize := by rw [ih, List.length_drop]
    simp only [List.length_cons, Nat.mul_add]
    omega

/-- What later bytes add is skipped on top of what was. -/
theorem skipped_append (data later : Bytes) :
    (ofBytes (data ++ later)).skipped =
      (ofBytes data).skipped + (ofBytes ((ofBytes data).heldBack ++ later)).skipped := by
  obtain ⟨packets, heldBack⟩ := ofBytes_append data later
  have whole := account (data ++ later)
  have first := account data
  have second := account ((ofBytes data).heldBack ++ later)
  simp only [packets, heldBack, List.length_append, Nat.mul_add] at whole first second
  omega

theorem length_flatten_framed {stream : List Bytes} (framed : ∀ packet ∈ stream, Framed packet) :
    stream.flatten.length = packetSize * stream.length := by
  induction stream with
  | nil => rfl
  | cons packet rest ih =>
    have whole : packet.length = packetSize := (framed packet List.mem_cons_self).1
    have rest' := ih fun other member => framed other (List.mem_cons_of_mem _ member)
    simp only [List.flatten_cons, List.length_append, List.length_cons, Nat.mul_add]
    omega

/-- Behind bytes that hold no sync byte a stream of packets splits into itself. -/
theorem ofBytes_garbage {garbage : Bytes} {stream : List Bytes} (clean : syncByte ∉ garbage)
    (framed : ∀ packet ∈ stream, Framed packet) :
    ofBytes (garbage ++ stream.flatten) = ⟨stream, [], garbage.length⟩ := by
  obtain ⟨packets, heldBack⟩ := ofBytes_congr (align_of_not_mem clean stream.flatten)
  rw [ofBytes_flatten framed] at packets
  have size := length_flatten_framed framed
  have alone := account stream.flatten
  rw [ofBytes_flatten framed] at alone
  have nothing : (ofBytes stream.flatten).heldBack = [] := by
    apply List.eq_nil_of_length_eq_zero
    omega
  have whole := account (garbage ++ stream.flatten)
  rw [packets, heldBack, nothing, List.length_append, List.length_nil] at whole
  have skipped : (ofBytes (garbage ++ stream.flatten)).skipped = garbage.length := by omega
  generalize ofBytes (garbage ++ stream.flatten) = split at packets heldBack skipped
  obtain ⟨_, _, _⟩ := split
  simp only at packets heldBack skipped
  rw [packets, heldBack, nothing, skipped]

end Split

namespace Reassembler

theorem push_push (r : Reassembler) (first second : Bytes) :
    ((r.push first).1 ++ ((r.push first).2.push second).1, ((r.push first).2.push second).2) =
      r.push (first ++ second) := by
  obtain ⟨packets, heldBack⟩ := Split.ofBytes_append (r.heldBack ++ first) second
  have skipped := Split.skipped_append (r.heldBack ++ first) second
  rw [List.append_assoc] at packets heldBack skipped
  simp only [push, packets, heldBack, skipped, Nat.add_assoc]

theorem push_nil {r : Reassembler} (resting : r.Resting) : r.push [] = ([], r) := by
  obtain ⟨aligned, short⟩ := resting
  have short' : (Split.align r.heldBack).length < packetSize := aligned.symm ▸ short
  obtain ⟨packets, heldBack⟩ := Split.ofBytes_of_short short'
  have account := Split.account r.heldBack
  rw [packets, heldBack, aligned] at account
  have skipped : (Split.ofBytes r.heldBack).skipped = 0 := by
    simp only [List.length_nil] at account
    omega
  simp only [push, List.append_nil, packets, heldBack, aligned, skipped, Nat.add_zero]

/-- Datagrams leave a reassembler where their bytes in one piece would. -/
theorem feed_eq_push {r : Reassembler} (resting : r.Resting) (datagrams : List Bytes) :
    r.feed datagrams = r.push datagrams.flatten := by
  induction datagrams generalizing r with
  | nil => exact (push_nil resting).symm
  | cons datagram rest ih =>
    rw [List.flatten_cons, ← push_push, ← ih (r.resting_push datagram)]
    rfl

/-- What a reassembler is asked to do. -/
inductive Request where
  | push (datagram : Bytes)
  | flush

def answer (r : Reassembler) : Request → List Bytes × Reassembler
  | .push datagram => r.push datagram
  | .flush => ([], r.flush)

/-- One request after the other. -/
def serve (r : Reassembler) : List Request → List Bytes × Reassembler
  | [] => ([], r)
  | request :: rest =>
    let (packets, next) := r.answer request
    let (later, last) := next.serve rest
    (packets ++ later, last)

theorem answer_sound (r : Reassembler) (request : Request) :
    (∀ packet ∈ (r.answer request).1, Framed packet) ∧ (r.answer request).2.Resting := by
  cases request with
  | push datagram => exact ⟨fun _ => Split.framed_of_mem, r.resting_push datagram⟩
  | flush => exact ⟨by simp [answer], resting_empty⟩

theorem serve_sound {r : Reassembler} (resting : r.Resting) (requests : List Request) :
    (∀ packet ∈ (r.serve requests).1, Framed packet) ∧ (r.serve requests).2.Resting := by
  induction requests generalizing r with
  | nil => exact ⟨by simp [serve], resting⟩
  | cons request rest ih =>
    obtain ⟨framed, resting'⟩ := r.answer_sound request
    obtain ⟨framed', resting''⟩ := ih resting'
    refine ⟨fun packet member => ?_, resting''⟩
    obtain now | later := List.mem_append.mp member
    · exact framed packet now
    · exact framed' packet later

/-- **Where datagrams end does not matter.** They give the packets, the held-back bytes and the
skip count of their bytes in one piece. After any requests the packets that came out are packets,
and what is held back is the beginning of one; as long as nothing is flushed no byte is unaccounted
for. Behind bytes that hold no sync byte a stream of packets comes out as it was sent. -/
theorem reassembly_ignores_boundaries :
    (∀ (requests : List Request) (datagrams : List Bytes),
      (empty.serve requests).2.feed datagrams =
        (empty.serve requests).2.push datagrams.flatten) ∧
    (∀ requests : List Request,
      (∀ packet ∈ (empty.serve requests).1,
        packet.length = packetSize ∧ packet.head? = some syncByte) ∧
      (empty.serve requests).2.heldBack.length < packetSize ∧
      ((empty.serve requests).2.heldBack = [] ∨
        (empty.serve requests).2.heldBack.head? = some syncByte)) ∧
    (∀ datagrams : List Bytes,
      (empty.feed datagrams).2.skipped + packetSize * (empty.feed datagrams).1.length +
        (empty.feed datagrams).2.heldBack.length = datagrams.flatten.length) ∧
    ∀ (garbage : Bytes) (stream datagrams : List Bytes), syncByte ∉ garbage →
      (∀ packet ∈ stream, packet.length = packetSize ∧ packet.head? = some syncByte) →
      datagrams.flatten = garbage ++ stream.flatten →
      empty.feed datagrams = (stream, ⟨[], garbage.length⟩) := by
  refine ⟨fun requests => feed_eq_push (serve_sound resting_empty requests).2,
    fun requests => ?_, fun datagrams => ?_, fun garbage stream datagrams clean framed same => ?_⟩
  · obtain ⟨framed, aligned, short⟩ := serve_sound resting_empty requests
    exact ⟨framed, short, aligned ▸ Split.align_synced _⟩
  · have account := Split.account datagrams.flatten
    rw [feed_eq_push resting_empty]
    simpa [push, empty] using account
  · rw [feed_eq_push resting_empty, same]
    simp only [push, empty, List.nil_append, Split.ofBytes_garbage clean framed, Nat.zero_add]

/-- Two packets, one of them nothing but sync bytes, behind two other bytes. A datagram ends between
those two, two end within packets, and one is empty. -/
theorem sample_reassembled :
    let garbage : Bytes := [0x00, 0x12]
    let stream : List Bytes :=
      [List.replicate 188 syncByte, syncByte :: List.replicate 187 0x00]
    let datagrams : List Bytes := [[0x00], [0x12, syncByte], [], List.replicate 188 syncByte,
      List.replicate 187 0x00]
    syncByte ∉ garbage ∧
      (∀ packet ∈ stream, packet.length = packetSize ∧ packet.head? = some syncByte) ∧
      datagrams.flatten = garbage ++ stream.flatten ∧
      empty.feed datagrams = (stream, ⟨[], 2⟩) := by
  intro garbage stream datagrams
  have clean : syncByte ∉ garbage := by decide
  have framed :
      ∀ packet ∈ stream, packet.length = packetSize ∧ packet.head? = some syncByte := by
    decide +kernel
  have same : datagrams.flatten = garbage ++ stream.flatten := by decide +kernel
  exact ⟨clean, framed, same,
    reassembly_ignores_boundaries.2.2.2 garbage stream datagrams clean framed same⟩

end Reassembler

end MotionImagery.Transport
