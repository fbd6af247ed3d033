import LteMac.Radio.Report

/-!
# Reuse zones

A cell that reuses frequencies treats UEs at its edge differently. A UE belongs to the edge if
the latest wideband quality it reported on its first layer is below a threshold; a UE that has
not reported is a centre UE.
-/

namespace LteMac

/-- Where a UE is taken to be. -/
inductive Zone where
  /-- It is well received, or has not reported yet. -/
  | centre
  /-- It is badly received, and disturbed by the neighbours. -/
  | edge
deriving DecidableEq

/-- The zones learned from quality reports. -/
structure ZoneMap where
  /-- Qualities below this one mean the edge. -/
  threshold : Nat
  /-- The zone of each UE that reported. -/
  zones : Table Rnti Zone

namespace ZoneMap

/-- No report yet. -/
def empty (threshold : Nat) : ZoneMap := ⟨threshold, ∅⟩

/-- The zone of a UE. -/
def zone (m : ZoneMap) (rnti : Rnti) : Zone := m.zones[rnti]?.getD .centre

/-- The zone that a wideband quality means. -/
def classify (m : ZoneMap) (cqi : Nat) : Zone := if cqi < m.threshold then .edge else .centre

/-- Takes in one report; a report without a wideband quality says nothing. -/
def learn (m : ZoneMap) (report : CqiReport) : ZoneMap :=
  match report.wideband.head? with
  | none => m
  | some cqi => { m with zones := m.zones.insert report.rnti (m.classify cqi) }

/-- Takes in a list of reports, in order. -/
def learnAll (m : ZoneMap) (reports : List CqiReport) : ZoneMap := reports.foldl learn m

/-- Forgets a UE. -/
def forget (m : ZoneMap) (rnti : Rnti) : ZoneMap := { m with zones := m.zones.erase rnti }

end ZoneMap

end LteMac
