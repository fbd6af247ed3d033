import LteMac.Scenario.Check
import LteMac.Yaml.Value

/-!
# Scenario files

The form of a scenario file: which fields it has, under which keys, and of which types. A file
that has this form is a draft; keys that are not known here are passed over.
-/

namespace LteMac

open Yaml

/-- A band of a scenario file. -/
def readBand (n : Node) : Read Band := do
  let f ← Fields.ofNode ["offset", "width"] n
  return { offset := ← f.required "offset" .nat64, width := ← f.required "width" .nat64 }

/-- A carrier of a scenario file. -/
def readCarrier (n : Node) : Read CarrierDraft := do
  let f ← Fields.ofNode ["dl_bandwidth", "ul_bandwidth", "dl_earfcn", "ul_earfcn", "csg_id",
    "csg_indication", "primary"] n
  let usual : CarrierDraft := {}
  return {
    downlinkBandwidth := ← f.field "dl_bandwidth" .nat16 usual.downlinkBandwidth
    uplinkBandwidth := ← f.field "ul_bandwidth" .nat16 usual.uplinkBandwidth
    downlinkChannel := ← f.field "dl_earfcn" .nat32 usual.downlinkChannel
    uplinkChannel := ← f.field "ul_earfcn" .nat32 usual.uplinkChannel
    subscriberGroup := ← f.field "csg_id" .nat32 usual.subscriberGroup
    closedGroup := ← f.field "csg_indication" .bool usual.closedGroup
    primary := ← f.field "primary" .bool usual.primary }

/-- The sources of uplink quality, by name. -/
def sinrSources : List (String × SinrSource) := [("srs", .sounding), ("pusch", .data)]

/-- The channel metrics, by name. -/
def channelMetrics : List (String × ChannelMetric) :=
  [("ff", .frequencySelective), ("pf", .proportionalFair)]

/-- The scheduler of a scenario file. -/
def readScheduler (n : Node) : Read SchedulerDraft := do
  let f ← Fields.ofNode ["algorithm", "cqi_timers_threshold", "harq_enabled", "ul_cqi_filter",
    "time_window", "ul_grant_mcs", "cqa_metric", "cqa_delay_group_ms", "sr_grant_bytes",
    "rank_adaptation"] n
  return {
    algorithm := ← f.optional "algorithm" .text
    cqiThreshold := ← f.optional "cqi_timers_threshold" .nat32
    harqEnabled := ← f.optional "harq_enabled" .bool
    sinrSource := ← f.optional "ul_cqi_filter" (.choice sinrSources)
    timeWindow := ← f.optional "time_window" .float
    accessMcs := ← f.optional "ul_grant_mcs" .nat8
    metric := ← f.optional "cqa_metric" (.choice channelMetrics)
    delayGroup := ← f.optional "cqa_delay_group_ms" .nat16
    requestBytes := ← f.optional "sr_grant_bytes" .nat32
    rankAdaptation := ← f.optional "rank_adaptation" .bool }

/-- The rules of reuse plans, by name. -/
def planRules : List (String × PlanRule) :=
  [("none", .full), ("hard", .hard), ("soft", .soft), ("enhanced", .enhanced),
    ("distributed", .distributed)]

/-- What a neighbour announces, in a scenario file. -/
def readAnnouncement (n : Node) : Read (UInt16 × List Nat) := do
  let f ← Fields.ofNode ["cell_id", "rbgs"] n
  return ((← f.required "cell_id" .nat16).toUInt16, ← f.required "rbgs" (.list .nat64))

/-- The reuse plan of a scenario file. -/
def readPlan (n : Node) : Read PlanDraft := do
  let f ← Fields.ofNode ["algorithm", "dl_sub_band", "ul_sub_band", "dl_secondary",
    "ul_secondary", "cqi_threshold", "neighbour_rntp"] n
  let usual : PlanDraft := {}
  return {
    rule := ← f.field "algorithm" (.choice planRules) usual.rule
    downlink := ← f.optional "dl_sub_band" readBand
    uplink := ← f.optional "ul_sub_band" readBand
    downlinkSecondary := ← f.optional "dl_secondary" readBand
    uplinkSecondary := ← f.optional "ul_secondary" readBand
    threshold := ← f.field "cqi_threshold" .nat8 usual.threshold
    announcements := ← f.field "neighbour_rntp" (.list readAnnouncement) usual.announcements }

/-- A UE of a scenario file. -/
def readUe (n : Node) : Read UeDraft := do
  let f ← Fields.ofNode ["rnti", "carrier", "tx_mode", "qci", "gbr_kbps", "dl_load_bytes",
    "ul_load_bytes", "wideband_cqi", "subband_cqi", "ul_sinr_db", "rank", "nack_every"] n
  let usual : UeDraft := { rnti := (← f.required "rnti" .nat16).toUInt16 }
  return {
    rnti := usual.rnti
    carrier := ← f.field "carrier" .nat64 usual.carrier
    mode := ← f.field "tx_mode" .nat8 usual.mode
    qci := ← f.field "qci" .nat8 usual.qci
    guaranteed := ← f.optional "gbr_kbps" .nat64
    downlinkLoad := ← f.field "dl_load_bytes" .nat32 usual.downlinkLoad
    uplinkLoad := ← f.field "ul_load_bytes" .nat32 usual.uplinkLoad
    widebandCqi := ← f.field "wideband_cqi" .nat8 usual.widebandCqi
    subbandCqi := ← f.field "subband_cqi" (.list .nat8) usual.subbandCqi
    sinr := ← f.field "ul_sinr_db" .float usual.sinr
    rank := ← f.field "rank" .nat8 usual.rank
    nackEvery := ← f.field "nack_every" .nat32 usual.nackEvery }

/-- A scenario file. -/
def readScenario (n : Node) : Read ScenarioDraft := do
  let f ← Fields.ofNode ["carriers", "scheduler", "ffr", "ues", "subframes"] n
  let usual : ScenarioDraft := {}
  return {
    carriers := ← f.field "carriers" (.list readCarrier) usual.carriers
    scheduler := ← f.field "scheduler" readScheduler usual.scheduler
    plan := ← f.field "ffr" readPlan usual.plan
    ues := ← f.field "ues" (.list readUe) usual.ues
    subframes := ← f.field "subframes" .nat64 usual.subframes }

/-- What a scenario file says, if it has the form of one. -/
def ScenarioDraft.parse? (text : String) : Option ScenarioDraft := do
  (← Document.parse? text).read? readScenario

/-- The scenario a file describes. -/
def Scenario.parse (text : String) : Except ScenarioError Scenario :=
  match ScenarioDraft.parse? text with
  | some draft => ofDraft draft
  | none => .error .unreadable

end LteMac
