import LteMac.Quality.Aging

/-!
# Downlink channel quality

The cell keeps two reports for each UE, which age on their own: one quality for the whole band,
and one for each group and layer.
-/

namespace LteMac

/-- The live downlink quality reports. -/
structure DownlinkQuality where
  /-- Quality of the whole band. -/
  wideband : AgingTable Nat
  /-- By group, then layer. -/
  subband : AgingTable (List (List Nat))

namespace DownlinkQuality

/-- No report. -/
def empty (threshold : Nat) : DownlinkQuality := ⟨.empty threshold, .empty threshold⟩

/-- Stores a quality of the whole band. -/
def reportWideband (q : DownlinkQuality) (rnti : Rnti) (cqi : Nat) : DownlinkQuality :=
  { q with wideband := q.wideband.report rnti cqi }

/-- Stores the qualities of the groups. -/
def reportSubband (q : DownlinkQuality) (rnti : Rnti) (cqis : List (List Nat)) :
    DownlinkQuality :=
  { q with subband := q.subband.report rnti cqis }

/-- The quality of the whole band, if known. -/
def wideband? (q : DownlinkQuality) (rnti : Rnti) : Option Nat := q.wideband.get? rnti

/-- The quality of a layer in the list of a group; a missing layer counts as the first. -/
def layerCqi? (layers : List Nat) (layer : Nat) : Option Nat := layers[layer]?.or layers.head?

/-- The quality of a group on a layer, if known. -/
def subband? (q : DownlinkQuality) (rnti : Rnti) (rbg layer : Nat) : Option Nat :=
  ((q.subband.get? rnti).bind (·[rbg]?)).bind (layerCqi? · layer)

/-- The quality a grant may count on: that of the group, or else of the whole band. -/
def effective? (q : DownlinkQuality) (rnti : Rnti) (rbg layer : Nat) : Option Nat :=
  (q.subband? rnti rbg layer).or (q.wideband? rnti)

/-- The UEs that the next refresh takes a report from: wideband reports first, each part
ascending. -/
def expiring (q : DownlinkQuality) : List Rnti := q.wideband.expiring ++ q.subband.expiring

/-- Ages every report by one subframe. -/
def refresh (q : DownlinkQuality) : DownlinkQuality := ⟨q.wideband.refresh, q.subband.refresh⟩

/-- Forgets a UE. -/
def erase (q : DownlinkQuality) (rnti : Rnti) : DownlinkQuality :=
  ⟨q.wideband.erase rnti, q.subband.erase rnti⟩

/-- The number of UEs with a report of either kind. -/
def size (q : DownlinkQuality) : Nat :=
  q.wideband.size + (q.subband.entries.keys.filter (!q.wideband.contains ·)).length

end DownlinkQuality

end LteMac
