import LteMac.Numeric.Print
import LteMac.Simulation.Report
import LteMac.Text.Quoted

/-!
# Log lines

What a run writes about its cells: a summary, a line for each UE with its rates in kbit/s, and a
warning if the scheduler still holds something after the release.
-/

namespace LteMac

/-- How much a log line matters. -/
inductive LogLevel where
  | info
  | warn
  | error
deriving DecidableEq

/-- The name of a level. -/
def LogLevel.name : LogLevel → String
  | info => "INFO"
  | warn => "WARN"
  | error => "ERROR"

/-- A log line. -/
structure LogLine where
  level : LogLevel
  text : String
deriving DecidableEq

/-- Digits for the identity of a UE in a log line. -/
def rntiWidth : Nat := 5

/-- Digits for a rate in a log line. -/
def rateWidth : Nat := 9

/-- The rate at which bytes were sent, in kbit/s. -/
def rate (bytes subframes : Nat) : Float :=
  Float.ofNat bytes * 8.0 / 1000.0 / (Float.ofNat (max subframes 1) / 1000.0)

/-- One direction of a UE. -/
def directionText (direction : Direction) (bytes subframes blocks retransmissions losses : Nat) :
    String :=
  let rate := Numeric.padLeft rateWidth (Numeric.onePlace (rate bytes subframes))
  s!"{direction.name} {rate} kbit/s ({blocks} TBs, {retransmissions} retx, {losses} NACK)"

/-- The line of a UE. -/
def Tally.line (t : Tally) (rnti : Rnti) (subframes : Nat) : LogLine :=
  let name := Numeric.padLeft rntiWidth (toString rnti)
  let downlink := directionText .downlink t.downlinkBytes subframes t.downlinkBlocks
    t.downlinkRetransmissions t.downlinkLosses
  let uplink := directionText .uplink t.uplinkBytes subframes t.uplinkBlocks
    t.uplinkRetransmissions t.uplinkLosses
  ⟨.info, s!"  UE {name}: {downlink} | {uplink}"⟩

namespace TableSizes

/-- The sizes, by name. -/
def fields (t : TableSizes) : List (String × Nat) :=
  [("ues", t.ues), ("logical_channels", t.logicalChannels), ("rlc_buffers", t.rlcBuffers),
    ("dl_harq", t.downlinkHarq), ("ul_harq", t.uplinkHarq), ("dl_cqi", t.downlinkQuality),
    ("ul_cqi", t.uplinkQuality), ("dl_flows", t.downlinkFlows), ("ul_flows", t.uplinkFlows),
    ("ul_buffers", t.uplinkBuffers), ("sr_pending", t.requests),
    ("ce_pending", t.controlElements), ("dl_info_buffered", t.bufferedFeedback),
    ("rach_pending", t.preambles), ("rach_allocations", t.accessBlocks),
    ("ul_allocations", t.assignedBlocks)]

/-- The sizes as text. -/
def text (t : TableSizes) : String :=
  let fields := ", ".intercalate (t.fields.map fun f => s!"{f.1}: {f.2}")
  "TableSizes \x7b " ++ fields ++ " \x7d"

end TableSizes

namespace CellReport

/-- The summary of a cell. -/
def summary (r : CellReport) : LogLine :=
  let algorithm := Text.quoted r.algorithm
  ⟨.info, s!"Cell summary cell_id={r.cell} primary={r.primary} algorithm={algorithm} " ++
    s!"subframes={r.subframes} rars={r.accesses}"⟩

/-- A warning about what is left, if anything is. -/
def leftovers (r : CellReport) : List LogLine :=
  if r.residual = .zero then []
  else [⟨.warn, s!"State left after releasing every UE cell_id={r.cell} " ++
    s!"residual={r.residual.text}"⟩]

/-- The lines of a cell. -/
def lines (r : CellReport) : List LogLine :=
  r.summary :: r.ues.map (fun (rnti, t) => t.line rnti r.subframes) ++ r.leftovers

end CellReport

end LteMac
