/-!
What an elementary stream carries, by the type that its program table gives it.
-/
namespace MotionImagery.Transport

inductive Codec where
  | h264
  | mpeg2
  deriving DecidableEq, Repr

inductive StreamKind where
  | video (codec : Codec)
  | telemetry
  | other
  deriving DecidableEq, Repr

/-- Telemetry travels either in metadata packets or as private data. -/
def StreamKind.ofType (streamType : Nat) : StreamKind :=
  match streamType with
  | 0x1B => .video .h264
  | 0x02 => .video .mpeg2
  | 0x15 => .telemetry
  | 0x06 => .telemetry
  | _ => .other

end MotionImagery.Transport
