import MotionImagery.Bytes

/-!
Length fields: one byte below `0x80`, or `0x80 + n` and then `n` bytes, most significant first,
where `n` is from one to eight. A length need not be written in the fewest bytes.
-/
namespace MotionImagery.Telemetry

/-- The most bytes that a long length may have after its first. -/
def longestLength : Nat := 8

/-- The length that stands at the front, and how many bytes it takes up. -/
def readLength? (data : Bytes) : Option (Nat × Nat) :=
  match data with
  | [] => none
  | first :: rest =>
    if first.toNat < 0x80 then some (first.toNat, 1)
    else
      let count := first.toNat - 0x80
      if count = 0 ∨ longestLength < count ∨ rest.length < count then none
      else some (bigEndian (rest.take count), 1 + count)

/-- A length field takes up at least one byte, and none that are not there. -/
theorem size_of_readLength? {data : Bytes} {length size : Nat}
    (read : readLength? data = some (length, size)) : 1 ≤ size ∧ size ≤ data.length := by
  unfold readLength? at read
  split at read
  · simp at read
  · rename_i first rest
    split at read
    · simp only [Option.some.injEq, Prod.mk.injEq] at read
      simp only [List.length_cons]
      omega
    · dsimp only at read
      split at read
      · simp at read
      · simp only [Option.some.injEq, Prod.mk.injEq] at read
        simp only [List.length_cons]
        omega

end MotionImagery.Telemetry
