import MotionImagery.Transport.Reassembly

/-!
Packets do not depend on datagrams. What a byte string splits into grows at its end only, so
datagrams give the packets of their bytes, wherever one ends and the next begins.
-/
namespace MotionImagery.Transport

namespace Split

theorem align_append_of_ne_nil {data : Bytes} (synced : align data ≠ []) (later : Bytes) :
    align (data ++ later) = align data ++ later := by
  rw [align, List.dropWhile_append, ← align, if_neg (by simpa using synced)]

theorem align_append_of_nil {data : Bytes} (skipped : align data = []) (later : Bytes) :
    align (data ++ later) = align later := by
  rw [align, List.dropWhile_append, ← align, skipped]
  rfl

/-- Nothing is skipped twice. -/
theorem align_align (data : Bytes) : align (align data) = align data := by
  cases aligned : align data with
  | nil => rfl
  | cons first rest =>
    have synced : first = syncByte := by
      have := List.head?_dropWhile_not (· ≠ syncByte) data
      rw [← align, aligned] at this
      simpa using this
    simp [align, synced]

theorem ofBytes_of_short {data : Bytes} (short : (align data).length < packetSize) :
    (ofBytes data).packets = [] ∧ (ofBytes data).heldBack = align data := by
  rw [ofBytes, if_pos short]
  exact ⟨rfl, rfl⟩

theorem ofBytes_of_long {data : Bytes} (long : ¬(align data).length < packetSize) :
    (ofBytes data).packets =
        (align data).take packetSize :: (ofBytes ((align data).drop packetSize)).packets ∧
      (ofBytes data).heldBack = (ofBytes ((align data).drop packetSize)).heldBack := by
  rw [ofBytes, if_neg long]
  exact ⟨rfl, rfl⟩

theorem ofBytes_congr {data other : Bytes} (same : align data = align other) :
    (ofBytes data).packets = (ofBytes other).packets ∧
      (ofBytes data).heldBack = (ofBytes other).heldBack := by
  by_cases short : (align data).length < packetSize
  · obtain ⟨packets, heldBack⟩ := ofBytes_of_short short
    obtain ⟨packets', heldBack'⟩ := ofBytes_of_short (same ▸ short)
    rw [packets, heldBack, packets', heldBack', same]
    exact ⟨rfl, rfl⟩
  · obtain ⟨packets, heldBack⟩ := ofBytes_of_long short
    obtain ⟨packets', heldBack'⟩ := ofBytes_of_long (same ▸ short)
    rw [packets, heldBack, packets', heldBack', same]
    exact ⟨rfl, rfl⟩

/-- What is held back is less than a packet and begins like one. -/
theorem heldBack_rests (data : Bytes) :
    align (ofBytes data).heldBack = (ofBytes data).heldBack ∧
      (ofBytes data).heldBack.length < packetSize := by
  fun_induction ofBytes data with
  | case1 data short => exact ⟨align_align data, short⟩
  | case2 data long rest ih => exact ih

/-- Later bytes add packets behind those there are, out of what was held back. -/
theorem ofBytes_append (data later : Bytes) :
    (ofBytes (data ++ later)).packets =
        (ofBytes data).packets ++ (ofBytes ((ofBytes data).heldBack ++ later)).packets ∧
      (ofBytes (data ++ later)).heldBack =
        (ofBytes ((ofBytes data).heldBack ++ later)).heldBack := by
  fun_induction ofBytes data with
  | case1 data short =>
    simp only [List.nil_append]
    apply ofBytes_congr
    by_cases skipped : align data = []
    · rw [align_append_of_nil skipped, skipped, List.nil_append]
    · rw [align_append_of_ne_nil skipped, align_append_of_ne_nil (by rwa [align_align]),
        align_align]
  | case2 data long rest ih =>
    have enough : packetSize ≤ (align data).length := Nat.le_of_not_lt long
    have synced : align data ≠ [] := by
      rintro skipped
      simp [skipped, packetSize] at enough
    have grown : align (data ++ later) = align data ++ later := align_append_of_ne_nil synced later
    have long' : ¬(align (data ++ later)).length < packetSize := by
      rw [grown, List.length_append]
      omega
    obtain ⟨packets, heldBack⟩ := ofBytes_of_long long'
    rw [packets, heldBack, grown, List.take_append_of_le_length enough,
      List.drop_append_of_le_length enough]
    exact ⟨by rw [ih.1, List.cons_append], ih.2⟩

theorem packets_prefix (data later : Bytes) :
    (ofBytes data).packets <+: (ofBytes (data ++ later)).packets :=
  ⟨_, (ofBytes_append data later).1.symm⟩

end Split

/-- As many bytes as a packet has, and the first of them is the sync byte. -/
def Framed (packet : Bytes) : Prop := packet.length = packetSize ∧ packet.head? = some syncByte

/-- Packets one after the other split into themselves. -/
theorem Split.ofBytes_flatten {stream : List Bytes} (framed : ∀ packet ∈ stream, Framed packet) :
    (ofBytes stream.flatten).packets = stream := by
  induction stream with
  | nil => exact (ofBytes_of_short (by decide)).1
  | cons packet rest ih =>
    obtain ⟨whole, synced⟩ := framed packet List.mem_cons_self
    have aligned : align (packet ++ rest.flatten) = packet ++ rest.flatten := by
      cases packet with
      | nil => simp at synced
      | cons first tail =>
        obtain rfl : first = syncByte := by simpa using synced
        simp [align]
    have long : ¬(align (packet ++ rest.flatten)).length < packetSize := by
      rw [aligned, List.length_append]
      omega
    rw [List.flatten_cons, (ofBytes_of_long long).1, aligned, ← whole, List.take_left,
      List.drop_left, ih fun other member => framed other (List.mem_cons_of_mem _ member)]

namespace Reassembler

/-- One datagram after the other. -/
def feed (r : Reassembler) : List Bytes → List Bytes × Reassembler
  | [] => ([], r)
  | datagram :: rest =>
    let (packets, next) := r.push datagram
    let (later, last) := next.feed rest
    (packets ++ later, last)

/-- Nothing more can be taken out of what is held back. -/
def Resting (r : Reassembler) : Prop :=
  Split.align r.heldBack = r.heldBack ∧ r.heldBack.length < packetSize

theorem resting_empty : Resting .empty := ⟨rfl, by decide⟩

theorem resting_push (r : Reassembler) (datagram : Bytes) : (r.push datagram).2.Resting :=
  Split.heldBack_rests (r.heldBack ++ datagram)

/-- **Datagrams do not matter.** Pushed one after the other they give the packets of their bytes. -/
theorem feed_flatten {r : Reassembler} (resting : r.Resting) (datagrams : List Bytes) :
    (r.feed datagrams).1 = (Split.ofBytes (r.heldBack ++ datagrams.flatten)).packets := by
  induction datagrams generalizing r with
  | nil =>
    obtain ⟨aligned, short⟩ := resting
    rw [List.flatten_nil, List.append_nil, (Split.ofBytes_of_short (aligned.symm ▸ short)).1]
    rfl
  | cons datagram rest ih =>
    simp only [feed]
    rw [ih (r.resting_push datagram), List.flatten_cons, ← List.append_assoc,
      (Split.ofBytes_append (r.heldBack ++ datagram) rest.flatten).1]
    rfl

/-- Datagrams of a stream of packets, up to any point of it, give packets of the stream. -/
theorem feed_prefix {stream datagrams : List Bytes} (framed : ∀ packet ∈ stream, Framed packet)
    (part : datagrams.flatten <+: stream.flatten) : (empty.feed datagrams).1 <+: stream := by
  obtain ⟨later, whole⟩ := part
  have packets := Split.packets_prefix datagrams.flatten later
  rw [whole, Split.ofBytes_flatten framed] at packets
  rw [feed_flatten resting_empty]
  exact packets

end Reassembler

end MotionImagery.Transport
