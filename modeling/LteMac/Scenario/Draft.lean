import LteMac.Scenario.Basic

/-!
# Drafts

A draft is what a scenario file says, before anybody has checked that it makes sense: every value
has the type and the range of its field, and a field that is left out has its default, if it has
one. `Scenario.ofDraft` decides which drafts are scenarios.
-/

namespace LteMac

/-- A carrier of a draft. -/
structure CarrierDraft where
  downlinkBandwidth : Nat := 25
  uplinkBandwidth : Nat := 25
  downlinkChannel : Nat := 100
  uplinkChannel : Nat := 18100
  subscriberGroup : Nat := 0
  closedGroup : Bool := false
  primary : Bool := false

/-- The scheduler of a draft. -/
structure SchedulerDraft where
  algorithm : Option String := none
  cqiThreshold : Option Nat := none
  harqEnabled : Option Bool := none
  sinrSource : Option SinrSource := none
  timeWindow : Option Float := none
  accessMcs : Option Nat := none
  metric : Option ChannelMetric := none
  delayGroup : Option Nat := none
  requestBytes : Option Nat := none
  rankAdaptation : Option Bool := none

/-- The rule a reuse plan follows. -/
inductive PlanRule where
  | full
  | hard
  | soft
  | enhanced
  | distributed
deriving DecidableEq

/-- The reuse plan of a draft. -/
structure PlanDraft where
  rule : PlanRule := .full
  downlink : Option Band := none
  uplink : Option Band := none
  downlinkSecondary : Option Band := none
  uplinkSecondary : Option Band := none
  threshold : Nat := 7
  announcements : List (UInt16 × List Nat) := []

/-- A UE of a draft. -/
structure UeDraft where
  rnti : Rnti
  carrier : Nat := 0
  /-- The index of its transmission mode. -/
  mode : Nat := 0
  qci : Nat := 9
  guaranteed : Option Nat := none
  downlinkLoad : Nat := 0
  uplinkLoad : Nat := 0
  widebandCqi : Nat := 10
  subbandCqi : List Nat := []
  sinr : Float := 15.0
  rank : Nat := 1
  nackEvery : Nat := 0

/-- What a scenario file says. -/
structure ScenarioDraft where
  carriers : List CarrierDraft := []
  scheduler : SchedulerDraft := {}
  plan : PlanDraft := {}
  ues : List UeDraft := []
  subframes : Nat := Scenario.defaultSubframes

end LteMac
