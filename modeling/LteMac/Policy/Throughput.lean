/-!
# Throughput records

What a UE has been sent: a total, the bytes of the latest subframe, and an average that follows
the rate with exponential forgetting. One subframe lasts a millisecond; the average is in bytes
per second and is computed in binary floating point exactly as written here, so that the same run
always ranks the UEs in the same way.
-/

namespace LteMac

/-- The length of a subframe, in seconds. -/
def subframeSeconds : Float := 0.001

/-- The average after one more sample, over a window of so many samples. -/
def ewma (average sample window : Float) : Float :=
  (1.0 - 1.0 / window) * average + (1.0 / window) * sample

/-- The sum of a list, added up from the first on. -/
def floatSum (xs : List Float) : Float := xs.foldl (· + ·) (-0.0)

/-- The larger of two numbers; a value that is not a number does not count. -/
def floatMax (a b : Float) : Float :=
  if a.isNaN then b else if a < b then b else a

/-- The smaller of two numbers; a value that is not a number does not count. -/
def floatMin (a b : Float) : Float :=
  if a.isNaN then b else if b < a then b else a

/-- The record of one UE in one direction. -/
structure Throughput where
  /-- Downlink triggers before the UE was configured. -/
  start : Nat
  /-- Bytes in all subframes. -/
  total : Nat
  /-- Bytes of the latest subframe. -/
  latest : Nat
  /-- Bytes per second. -/
  average : Float

namespace Throughput

/-- The record of a UE that has just been configured. -/
def fresh (start : Nat) : Throughput := ⟨start, 0, 0, 1.0⟩

/-- The record after one more subframe. -/
def record (t : Throughput) (bytes : Nat) (window : Float) : Throughput :=
  { t with
    total := t.total + bytes
    latest := bytes
    average := ewma t.average (Float.ofNat bytes / subframeSeconds) window }

end Throughput

end LteMac
