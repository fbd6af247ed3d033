import LteMac.Radio.LinkAdaptation
import LteMac.Scheduler.Request

/-!
# New uplink data

The uplink gives each UE one contiguous stretch of blocks. The candidates are served in the order
of their turns, each behind the one before it: a candidate gets the first stretch of the common
length that is free and allowed for it, or a shorter one, down to a minimum, if there is none. The
scheme follows the worst block of the stretch.
-/

namespace LteMac.UplinkNew

/-- The shortest stretch given to a UE, where the reuse policy has room for it. -/
def minLength : Nat := 3

/-- Header bytes of a block. -/
def overhead : Nat := 2

/-- A pass over the candidates. -/
structure Round where
  /-- The UEs, with what they still hold. -/
  ues : Table Rnti UplinkUe
  /-- How well they are received. -/
  quality : UplinkQuality
  /-- The blocks still free. -/
  occupancy : Occupancy
  /-- Who is given which block. -/
  map : BlockMap
  /-- Where the next candidate's stretch may begin. -/
  start : Nat
  /-- The grants so far. -/
  sent : List UplinkGrant

/-- What stays the same during a pass. -/
structure Setting where
  /-- Whether the cell retransmits. -/
  harqEnabled : Bool
  /-- Who may have which block. -/
  reuse : ReusePolicy
  /-- The longest stretch given to a UE. -/
  length : Nat

namespace Setting

variable (setting : Setting)

/-- Whether a stretch is free and allowed for a UE. -/
def isOpen (occupancy : Occupancy) (rnti : Rnti) (start length : Nat) : Bool :=
  (List.range' start length).all fun block =>
    occupancy.isFree block && setting.reuse.uplinkAllowed block rnti

/-- The first open stretch of a length, from a block on. -/
def window? (occupancy : Occupancy) (rnti : Rnti) (start length : Nat) : Option Nat :=
  (List.range' start (occupancy.size + 1 - length - start)).find?
    (setting.isOpen occupancy rnti · length)

/-- The lengths a stretch may have, the longest first. -/
def lengths : List Nat :=
  (List.range' (min minLength setting.length)
    (setting.length + 1 - min minLength setting.length)).reverse

/-- The stretch for a UE, by its start and length. -/
def stretch? (occupancy : Occupancy) (rnti : Rnti) (start : Nat) : Option (Nat × Nat) :=
  setting.lengths.findSome? fun length =>
    (setting.window? occupancy rnti start length).map fun first => (first, length)

end Setting

/-- The smallest SINR over a stretch, and the reports after the estimates were noted. -/
def worstSinr (quality : UplinkQuality) (rnti : Rnti) (blocks : List Nat) :
    Float × UplinkQuality :=
  let look (acc : Float × UplinkQuality) (block : Nat) : Float × UplinkQuality :=
    match acc.2.sinr? rnti block with
    | none => acc
    | some value => (floatMin acc.1 value, acc.2.settle rnti block)
  blocks.foldl look (UplinkQuality.unlimited, quality)

/-- The scheme for a stretch, if the channel is usable at all, and the reports afterwards. A UE
without any report gets the most robust scheme. -/
def scheme (quality : UplinkQuality) (rnti : Rnti) (blocks : List Nat) :
    Option Nat × UplinkQuality :=
  if quality.contains rnti then
    let (sinr, quality) := worstSinr quality rnti blocks
    let cqi := LinkAdaptation.cqiOfSinr sinr
    (if cqi = 0 then none else some (LinkAdaptation.mcsOfCqi cqi), quality)
  else (some 0, quality)

/-- A UE after it was granted a block. -/
def granted (harqEnabled : Bool) (u : UplinkUe) (grant : UplinkGrant) : UplinkUe :=
  { u with
    buffer := u.buffer.map (· - (grant.tbs - overhead))
    harq := if harqEnabled then u.harq.store grant else u.harq }

/-- Serves a candidate. -/
def Setting.serve (setting : Setting) (round : Round) (rnti : Rnti) : Round :=
  match setting.stretch? round.occupancy rnti round.start with
  | none => round
  | some (start, length) =>
    let blocks := List.range' start length
    let (mcs, quality) := scheme round.quality rnti blocks
    let round := { round with quality }
    match mcs with
    | none => round
    | some mcs =>
      let grant : UplinkGrant :=
        { rnti, start, length, tbs := LinkAdaptation.uplinkBytes mcs length, mcs, ndi := 1
          tpc := setting.reuse.powerCommand rnti, cqiRequest := false, hopping := false }
      { round with
        ues := round.ues.modify rnti (granted setting.harqEnabled · grant)
        occupancy := round.occupancy.occupy blocks
        map := round.map.assign blocks rnti
        start := start + length
        sent := round.sent ++ [grant] }

/-- Serves the candidates; without any length nobody is served. -/
def Setting.serveAll (setting : Setting) (round : Round) (candidates : List Rnti) : Round :=
  if setting.length = 0 then round else candidates.foldl setting.serve round

end LteMac.UplinkNew
