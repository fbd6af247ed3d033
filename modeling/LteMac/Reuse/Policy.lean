import LteMac.Radio.Grant
import LteMac.Reuse.Band
import LteMac.Reuse.Zone

/-!
# Frequency reuse

Neighbouring cells that use the same band disturb each other at their edges. A reuse policy
restricts which downlink groups and uplink blocks the cell may hand out, cell-wide and for each
UE, and learns about the UEs from their quality reports:

* `full`: everything to everybody;
* `hard`: one band each way, to everybody;
* `soft`: the whole grid, split in an edge part for edge UEs and a centre part for the others;
* `enhanced`: a primary band for everybody, and a secondary band for UEs that report a good
  quality on it;
* `distributed`: the whole grid, but edge UEs avoid the groups neighbours announced.

Blocks outside the grid are never offered cell-wide; only `full` does not even look.
-/

namespace LteMac

/-- A way of sharing the band with the neighbours, and what it has learned. -/
inductive ReuseRule where
  /-- Nothing is kept from anybody. -/
  | full
  /-- One band in each direction. -/
  | hard (downlink uplink : Band)
  /-- The edge bands, the rest of the grid being the centre, and the zones of the UEs. -/
  | soft (downlinkEdge uplinkEdge : Band) (zones : ZoneMap)
  /-- The bands, the quality from which the secondary ones are open, and what was reported of the
  groups and of the whole band. -/
  | enhanced (downlinkPrimary downlinkSecondary uplinkPrimary uplinkSecondary : Band)
      (threshold : Nat) (subband : Table Rnti (List Nat)) (wideband : Table Rnti Nat)
  /-- The zones of the UEs, and what each neighbour announced last, by its number. -/
  | distributed (zones : ZoneMap) (announced : Table UInt16 (List Bool))

/-- A reuse rule on the grid of a cell. -/
structure ReusePolicy where
  /-- Downlink groups of the grid. -/
  rbgs : Nat
  /-- Uplink blocks of the grid. -/
  blocks : Nat
  /-- How the grid is shared with the neighbours. -/
  rule : ReuseRule

namespace ReusePolicy

/-- Everything to everybody. -/
def full (rbgs blocks : Nat) : ReusePolicy := ⟨rbgs, blocks, .full⟩

/-- One band each way. -/
def hard (rbgs blocks : Nat) (downlink uplink : Band) : ReusePolicy :=
  ⟨rbgs, blocks, .hard downlink uplink⟩

/-- An edge band each way, for UEs below the threshold. -/
def soft (rbgs blocks : Nat) (downlinkEdge uplinkEdge : Band) (threshold : Nat) : ReusePolicy :=
  ⟨rbgs, blocks, .soft downlinkEdge uplinkEdge (.empty threshold)⟩

/-- A primary and a secondary band each way; the secondary ones from the threshold on. -/
def enhanced (rbgs blocks : Nat)
    (downlinkPrimary downlinkSecondary uplinkPrimary uplinkSecondary : Band) (threshold : Nat) :
    ReusePolicy :=
  ⟨rbgs, blocks,
    .enhanced downlinkPrimary downlinkSecondary uplinkPrimary uplinkSecondary threshold ∅ ∅⟩

/-- No announcement yet; edge UEs are those below the threshold. -/
def distributed (rbgs blocks threshold : Nat) : ReusePolicy :=
  ⟨rbgs, blocks, .distributed (.empty threshold) ∅⟩

/-- The name of the rule. -/
def name (p : ReusePolicy) : String :=
  match p.rule with
  | .full => "none"
  | .hard .. => "hard"
  | .soft .. => "soft"
  | .enhanced .. => "enhanced"
  | .distributed .. => "distributed"

/-- Whether a downlink group is usable at all. -/
def downlinkOpen (p : ReusePolicy) (rbg : Nat) : Bool :=
  match p.rule with
  | .hard downlink _ => downlink.contains rbg
  | .enhanced primary secondary .. => primary.contains rbg || secondary.contains rbg
  | _ => true

/-- Whether an uplink block is usable at all. -/
def uplinkOpen (p : ReusePolicy) (block : Nat) : Bool :=
  match p.rule with
  | .hard _ uplink => uplink.contains block
  | .enhanced _ _ primary secondary .. => primary.contains block || secondary.contains block
  | _ => true

/-- The downlink groups usable cell-wide. -/
def downlinkFlags (p : ReusePolicy) : List Bool := flags p.rbgs p.downlinkOpen

/-- The uplink blocks usable cell-wide. -/
def uplinkFlags (p : ReusePolicy) : List Bool := flags p.blocks p.uplinkOpen

/-- Whether a neighbour announced a group. -/
def isAnnounced (announced : Table UInt16 (List Bool)) (rbg : Nat) : Bool :=
  announced.values.any (flagAt · rbg)

/-- Whether a UE may use a downlink group. -/
def downlinkAllowed (p : ReusePolicy) (rbg : Nat) (rnti : Rnti) : Bool :=
  match p.rule with
  | .full => true
  | .hard downlink _ => rbg < p.rbgs && downlink.contains rbg
  | .soft edge _ zones => rbg < p.rbgs && edge.contains rbg == (zones.zone rnti == .edge)
  | .enhanced primary secondary _ _ threshold subband _ =>
    rbg < p.rbgs && (primary.contains rbg || secondary.contains rbg &&
      (subband[rnti]?.bind (·[rbg]?)).any (threshold ≤ ·))
  | .distributed zones announced =>
    rbg < p.rbgs && (zones.zone rnti == .centre || !isAnnounced announced rbg)

/-- Whether a UE may use an uplink block. -/
def uplinkAllowed (p : ReusePolicy) (block : Nat) (rnti : Rnti) : Bool :=
  match p.rule with
  | .full => true
  | .hard _ uplink => block < p.blocks && uplink.contains block
  | .soft _ edge zones => block < p.blocks && edge.contains block == (zones.zone rnti == .edge)
  | .enhanced _ _ primary secondary threshold _ wideband =>
    block < p.blocks && (primary.contains block || secondary.contains block &&
      wideband[rnti]?.any (threshold ≤ ·))
  | .distributed .. => block < p.blocks

/-- Takes in one quality report. The enhanced rule remembers the first layer. -/
def learn (p : ReusePolicy) (report : CqiReport) : ReusePolicy :=
  match p.rule with
  | .full | .hard .. => p
  | .soft downlink uplink zones => { p with rule := .soft downlink uplink (zones.learn report) }
  | .enhanced dp ds up us threshold subband wideband =>
    let wideband := match report.wideband.head? with
      | none => wideband
      | some cqi => wideband.insert report.rnti cqi
    let subband := match report.kind with
      | .wideband => subband
      | .subband => subband.insert report.rnti (report.subband.map (·.headD 0))
    { p with rule := .enhanced dp ds up us threshold subband wideband }
  | .distributed zones announced =>
    { p with rule := .distributed (zones.learn report) announced }

/-- Takes in a list of quality reports, in order. -/
def learnAll (p : ReusePolicy) (reports : List CqiReport) : ReusePolicy := reports.foldl learn p

/-- Takes in what a neighbour announces, in place of what it announced before. Only the
distributed rule listens. -/
def hear? (p : ReusePolicy) (cell : UInt16) (high : List Bool) : Option ReusePolicy :=
  match p.rule with
  | .distributed zones announced =>
    some { p with rule := .distributed zones (announced.insert cell high) }
  | _ => none

/-- The power command for a UE: edge UEs send louder. -/
def powerCommand (p : ReusePolicy) (rnti : Rnti) : Nat :=
  match p.rule with
  | .soft _ _ zones | .distributed zones _ =>
    if zones.zone rnti = .edge then tpcBoost else tpcNeutral
  | _ => tpcNeutral

/-- The shorter of two runs, where an empty run does not count. -/
def shorterRun (a b : Nat) : Nat := if a = 0 then b else if b = 0 then a else min a b

/-- The widest contiguous uplink grant the policy always has room for. -/
def contiguousBlocks (p : ReusePolicy) : Nat :=
  match p.rule with
  | .full | .distributed .. => p.blocks
  | .hard _ uplink => (flags p.blocks uplink.contains).count true
  | .soft _ edge _ =>
    shorterRun (longestRun (flags p.blocks edge.contains))
      (longestRun (flags p.blocks fun i => !edge.contains i))
  | .enhanced _ _ primary .. => longestRun (flags p.blocks primary.contains)

/-- Forgets everything learned about a UE. -/
def forget (p : ReusePolicy) (rnti : Rnti) : ReusePolicy :=
  match p.rule with
  | .full | .hard .. => p
  | .soft downlink uplink zones => { p with rule := .soft downlink uplink (zones.forget rnti) }
  | .enhanced dp ds up us threshold subband wideband =>
    { p with rule := .enhanced dp ds up us threshold (subband.erase rnti) (wideband.erase rnti) }
  | .distributed zones announced =>
    { p with rule := .distributed (zones.forget rnti) announced }

end ReusePolicy

end LteMac
