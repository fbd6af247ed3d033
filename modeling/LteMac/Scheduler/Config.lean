import LteMac.Radio.Report

/-!
# Settings of a scheduler

What is chosen once for a cell: the scheduling algorithm and its parameters, and the bearers that
the policies look at.
-/

namespace LteMac

/-- The scheduling algorithms. -/
inductive Algorithm where
  /-- Channel and QoS aware. -/
  | cqa
  /-- Blind equal throughput, shared in frequency. -/
  | fdBet
  /-- Blind equal throughput, one UE at a time. -/
  | tdBet
  /-- Throughput to average. -/
  | tta
deriving DecidableEq

namespace Algorithm

/-- All algorithms, in the order in which they are listed. -/
def all : List Algorithm := [cqa, fdBet, tdBet, tta]

/-- The name of an algorithm. -/
def name : Algorithm → String
  | cqa => "cqa"
  | fdBet => "fdbet"
  | tdBet => "tdbet"
  | tta => "tta"

/-- The algorithm with a given name. -/
def ofName? (name : String) : Option Algorithm := all.find? (·.name == name)

end Algorithm

/-- The channel metric of the QoS aware algorithm. -/
inductive ChannelMetric where
  /-- The rate of a group relative to the whole band. -/
  | frequencySelective
  /-- The rate of a group relative to the average throughput. -/
  | proportionalFair
deriving DecidableEq

/-- A radio bearer of a UE. -/
structure Bearer where
  lcid : Lcid
  /-- The guaranteed downlink rate in bit/s, if the bearer has one. -/
  guaranteed : Option Nat
deriving DecidableEq

/-- The parameters of a scheduler. -/
structure SchedulerConfig where
  /-- Subframes that a quality report stays valid. -/
  cqiThreshold : Nat
  /-- Whether blocks are sent again that were not received. -/
  harqEnabled : Bool
  /-- Which uplink quality reports the cell takes; the others are ignored. -/
  sinrSource : SinrSource
  /-- Window of the throughput averages, in subframes. -/
  timeWindow : Float
  /-- The scheme of the grants that answer a random access. -/
  accessMcs : Nat
  /-- How the QoS aware algorithm compares channels. -/
  metric : ChannelMetric
  /-- Width of the delay groups of the QoS aware algorithm, in milliseconds. -/
  delayGroup : Nat
  /-- Bytes assumed of a UE that asks to send without saying how much. -/
  requestBytes : Nat
  /-- Whether reported ranks change transmission modes. -/
  rankAdaptation : Bool

namespace SchedulerConfig

/-- The parameters where nothing else is said. -/
def default : SchedulerConfig where
  cqiThreshold := 1000
  harqEnabled := true
  sinrSource := .sounding
  timeWindow := 99.0
  accessMcs := 0
  metric := .frequencySelective
  delayGroup := 25
  requestBytes := 16
  rankAdaptation := false

end SchedulerConfig

end LteMac
