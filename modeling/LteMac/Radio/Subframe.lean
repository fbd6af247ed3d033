/-!
# Subframes

Radio time is counted in frames of ten subframes of one millisecond; the frame number wraps at
1024. A `Subframe` is the packed code that travels with every report and trigger: the frame in
the upper bits, the subframe within the frame in the lower four.
-/

namespace LteMac

/-- A subframe, by its packed code. -/
structure Subframe where
  code : UInt16
deriving DecidableEq

namespace Subframe

/-- Subframes in a frame. -/
def perFrame : UInt16 := 10

/-- Frame numbers wrap here. -/
def frames : UInt16 := 1024

/-- The subframe `index` of frame `frame`; the frame number keeps ten bits, the index four. -/
def ofParts (frame index : UInt16) : Subframe :=
  ⟨((frame &&& 0x3FF) <<< 4) ||| (index &&& 0xF)⟩

/-- The frame a subframe lies in. -/
def frame (t : Subframe) : UInt16 := t.code >>> 4

/-- The place of a subframe within its frame. -/
def index (t : Subframe) : UInt16 := t.code &&& 0xF

/-- The subframe that follows. -/
def next (t : Subframe) : Subframe :=
  if t.index + 1 ≥ perFrame then ofParts ((t.frame + 1) % frames) 0
  else ofParts t.frame (t.index + 1)

/-- The subframe as people write it, `frame.index`. -/
def label (t : Subframe) : String := s!"{t.frame}.{t.index}"

end Subframe

end LteMac
