import LteMac.Radio.Carrier
import LteMac.Radio.TransmissionMode
import LteMac.Reuse.Plan
import LteMac.Scheduler.Config

/-!
# Scenarios

A scenario is one run: the carriers of a station, how they are scheduled and share the band, the
UEs that are served and what each of them does, and how long all this lasts.
-/

namespace LteMac

/-- A UE of a scenario, and how it behaves. -/
structure UeProfile where
  /-- Its identity on its carrier. -/
  rnti : Rnti
  /-- The place of its carrier in the scenario. -/
  carrier : Nat
  /-- Its transmission mode at the beginning. -/
  mode : TransmissionMode
  /-- The QoS class of its bearer. -/
  qci : Nat
  /-- The guaranteed rate of its bearer in kbit/s, if there is one. -/
  guaranteed : Option Nat
  /-- Bytes that arrive for it in every subframe. -/
  downlinkLoad : Nat
  /-- Bytes it has to send in every subframe. -/
  uplinkLoad : Nat
  /-- The quality it reports of the whole band. -/
  widebandCqi : Nat
  /-- The quality it reports of each group, if it does. -/
  subbandCqi : List Nat
  /-- The SINR its signal is received with, in decibels. -/
  sinr : Float
  /-- The number of layers it can tell apart. -/
  rank : Nat
  /-- Every how many blocks one fails; none does at 0. -/
  nackEvery : Nat

/-- One run. -/
structure Scenario where
  /-- The carriers of the station. -/
  carriers : List Carrier
  /-- How downlink groups are shared. -/
  algorithm : Algorithm
  /-- The parameters of the schedulers. -/
  config : SchedulerConfig
  /-- How frequencies are shared with the neighbours. -/
  plan : ReusePlan
  /-- The UEs, each on one of the carriers. -/
  ues : List UeProfile
  /-- How long the run takes. -/
  subframes : Nat

namespace Scenario

/-- The subframes of a run of which nothing else is said. -/
def defaultSubframes : Nat := 1000

/-- A primary carrier of which nothing else is said. -/
def defaultCarrier : Carrier := Carrier.default.setPrimary true

/-- A UE that always has something to receive and to send, and loses every tenth block. -/
def busyUe (rnti : Rnti) (cqi : Nat) : UeProfile where
  rnti
  carrier := 0
  mode := .singleAntenna
  qci := 9
  guaranteed := none
  downlinkLoad := 2000
  uplinkLoad := 200
  widebandCqi := cqi
  subbandCqi := []
  sinr := 15.0
  rank := 1
  nackEvery := 10

/-- The run where none is described: one carrier and two busy UEs, one near and one far. -/
def default : Scenario where
  carriers := [defaultCarrier]
  algorithm := .tdBet
  config := .default
  plan := .full
  ues := [busyUe 1 12, busyUe 2 6]
  subframes := defaultSubframes

/-- The place of the primary carrier. -/
def primary (s : Scenario) : Nat := (s.carriers.findIdx? (·.primary)).getD 0

end Scenario

end LteMac
