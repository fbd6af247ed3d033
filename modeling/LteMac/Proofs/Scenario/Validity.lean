import LteMac.Proofs.Numeric.Order
import LteMac.Proofs.Scenario.Accepted
import LteMac.Scenario.File
import Mathlib.Data.List.Forall2

/-!
# The drafts that are scenarios

A draft is checked in several places, one thing after the other, and the first thing that is wrong
is reported. What all the checks amount to is said here once, without an order
(`ScenarioDraft.Valid`), and so is what a draft describes (`ScenarioDraft.Describes`): the lists of
the file, in its order.

For each part there is an equivalence: it is accepted as some value if and only if it is valid and
describes that value. Equivalences compose, so the one for the whole draft follows from those for
its parts, and nothing is lost about either direction. A check that needs another part of the file,
such as that the bands of the plan fit every carrier, takes that part as an argument.

The check of the averaging window refuses what is below one subframe. What is not a number is below
nothing, and passes.

* `CarrierDraft.carrier_eq_ok`, `PlanDraft.plan_eq_ok`, `UeDraft.profiles_eq_ok`: the parts;
* `Scenario.ofDraft_eq_ok`, `Scenario.ofDraft_exact`: a draft is accepted if it is valid, and
  becomes what it describes;
* `Scenario.windowless_accepted`: a file whose window is not a number is accepted.
-/

namespace LteMac

/-! ## Carriers

A carrier is valid by itself, and a list of carriers is if each of them is and exactly one of them
is primary.
-/

namespace CarrierDraft

/-- The bandwidths and the channels of a carrier are in range. -/
structure Valid (d : CarrierDraft) : Prop where
  /-- Its downlink has one of the six bandwidths. -/
  downlinkBandwidth : d.downlinkBandwidth ∈ standardBandwidths
  /-- So has its uplink. -/
  uplinkBandwidth : d.uplinkBandwidth ∈ standardBandwidths
  /-- Its downlink channel has a number of 18 bits. -/
  downlinkChannel : d.downlinkChannel ≤ 262143
  /-- So has its uplink channel, and the numbers below 18000 are for the downlink. -/
  uplinkChannel : 18000 ≤ d.uplinkChannel ∧ d.uplinkChannel ≤ 262143

/-- The carrier that a draft speaks of. -/
def described (d : CarrierDraft) : Carrier where
  downlinkBandwidth := d.downlinkBandwidth
  uplinkBandwidth := d.uplinkBandwidth
  downlinkChannel := d.downlinkChannel
  uplinkChannel := d.uplinkChannel
  subscriberGroup := d.subscriberGroup
  closedGroup := d.closedGroup
  primary := d.primary

/-- A carrier is accepted if it is valid, and becomes what its draft says. -/
theorem carrier_eq_ok {d : CarrierDraft} {c : Carrier} :
    d.carrier = .ok c ↔ d.Valid ∧ c = d.described := by
  simp only [carrier, bind_eq_ok, Carrier.setDownlinkBandwidth, Carrier.setUplinkBandwidth,
    checkBandwidth_eq_ok, pure_eq_ok, Carrier.setDownlinkChannel, Carrier.setUplinkChannel,
    ite_eq_ok, reduceCtorEq, and_false, or_false, Except.ok.injEq]
  constructor
  · rintro ⟨_, ⟨n, ⟨hd, rfl⟩, rfl⟩, _, ⟨m, ⟨hu, rfl⟩, rfl⟩, _, ⟨hdc, rfl⟩, _, ⟨huc, rfl⟩, rfl⟩
    exact ⟨⟨hd, hu, hdc, huc⟩, rfl⟩
  · rintro ⟨⟨hd, hu, hdc, huc⟩, rfl⟩
    exact ⟨_, ⟨_, ⟨hd, rfl⟩, rfl⟩, _, ⟨_, ⟨hu, rfl⟩, rfl⟩, _, ⟨hdc, rfl⟩, _, ⟨huc, rfl⟩, rfl⟩

end CarrierDraft

namespace Scenario

/-- The carriers that some drafts speak of, or the usual one. -/
def describedCarriers : List CarrierDraft → List Carrier
  | [] => [defaultCarrier]
  | ds => ds.map (·.described)

/-- Carriers are accepted if each of them is, and stay in their order. -/
theorem carriersFrom_eq_ok {ds : List CarrierDraft} {index : Nat} {cs : List Carrier} :
    carriersFrom index ds = .ok cs ↔ (∀ d ∈ ds, d.Valid) ∧ cs = ds.map (·.described) := by
  induction ds generalizing index cs with
  | nil => simp [carriersFrom, eq_comm]
  | cons d ds ih =>
    simp only [carriersFrom, bind_eq_ok, mapError_eq_ok, pure_eq_ok, CarrierDraft.carrier_eq_ok, ih,
      List.forall_mem_cons, List.map_cons]
    constructor
    · rintro ⟨_, ⟨hd, rfl⟩, _, ⟨hds, rfl⟩, rfl⟩
      exact ⟨⟨hd, hds⟩, rfl⟩
    · rintro ⟨⟨hd, hds⟩, rfl⟩
      exact ⟨_, ⟨hd, rfl⟩, _, ⟨hds, rfl⟩, rfl⟩

/-- Primary carriers are counted one by one. -/
theorem length_primaries (cs : List Carrier) :
    (Carrier.primaries cs).length = cs.countP (·.primary) := by
  rw [Carrier.primaries, List.length_map, ← List.countP_eq_length_filter]
  conv_rhs => rw [← List.zipIdx_map_fst 0 cs, List.countP_map]
  rfl

/-- The place of the primary carrier is found if there is one of them. -/
theorem primaryIndex_eq_ok {cs : List Carrier} :
    (∃ i, Carrier.primaryIndex cs = .ok i) ↔ cs.countP (·.primary) = 1 := by
  rw [← length_primaries, Carrier.primaryIndex]
  rcases Carrier.primaries cs with _ | ⟨i, _ | ⟨j, is⟩⟩ <;> simp

/-- A file without carriers has the usual one; else all of them are valid and one is primary. -/
theorem carriersOf_eq_ok {ds : List CarrierDraft} {cs : List Carrier} :
    carriersOf ds = .ok cs ↔
      (ds = [] ∨ (∀ d ∈ ds, d.Valid) ∧ ds.countP (·.primary) = 1) ∧ cs = describedCarriers ds := by
  cases ds with
  | nil => simp [carriersOf, describedCarriers, eq_comm]
  | cons d ds =>
    have hprimary : ((d :: ds).map (·.described)).countP (·.primary) =
        (d :: ds).countP (·.primary) := List.countP_map
    simp only [carriersOf, bind_eq_ok, mapError_eq_ok, pure_eq_ok, carriersFrom_eq_ok,
      describedCarriers, reduceCtorEq, false_or, ← hprimary, ← primaryIndex_eq_ok]
    constructor
    · rintro ⟨_, ⟨hds, rfl⟩, i, hi, rfl⟩
      exact ⟨⟨hds, i, hi⟩, rfl⟩
    · rintro ⟨⟨hds, i, hi⟩, rfl⟩
      exact ⟨_, ⟨hds, rfl⟩, i, hi, rfl⟩

/-- There is always a carrier. -/
theorem describedCarriers_ne_nil (ds : List CarrierDraft) : describedCarriers ds ≠ [] := by
  cases ds <;> simp [describedCarriers]

end Scenario

/-! ## The scheduler

The algorithm is named in whatever case, and the parameters have to be in range. The check of the
window is as it is written: what is not a number passes it.
-/

namespace Algorithm

/-- An algorithm is found under its own name. -/
theorem name_of_ofName? {name : String} {algorithm : Algorithm}
    (h : ofName? name = some algorithm) : algorithm.name = name := by
  rw [ofName?] at h
  have hfound := List.find?_some h
  exact beq_iff_eq.1 hfound

/-- Algorithms differ in their names. -/
theorem name_injective {a b : Algorithm} (h : a.name = b.name) : a = b := by
  have hsome := ofName?_name a
  rw [h, ofName?_name] at hsome
  exact (Option.some.inj hsome).symm

end Algorithm

namespace SchedulerDraft

/-- The name that a draft has for its algorithm, in lower case. -/
def algorithmName (d : SchedulerDraft) : String := Text.lowercase (d.algorithm.getD "tdbet")

/-- The algorithm has a name, and the parameters are in range. -/
structure Valid (d : SchedulerDraft) : Prop where
  /-- The algorithm is known, in whatever case it is written. -/
  algorithm : d.algorithmName ∈ ["cqa", "fdbet", "tdbet", "tta"]
  /-- The window is at least one subframe, or not a number. -/
  window : d.parameters.timeWindow.isNaN = true ∨ 1.0 ≤ d.parameters.timeWindow
  /-- There is such a scheme. -/
  accessMcs : d.parameters.accessMcs ≤ 28

/-- The algorithm that is accepted is the one that is named. -/
theorem algorithmOrDefault_eq_ok {d : SchedulerDraft} {algorithm : Algorithm} :
    d.algorithmOrDefault = .ok algorithm ↔ algorithm.name = d.algorithmName := by
  have hname : d.algorithmName = Text.lowercase (d.algorithm.getD Algorithm.tdBet.name) := rfl
  rw [algorithmOrDefault, hname]
  split
  next found hfound =>
    rw [Except.ok.injEq, ← Algorithm.name_of_ofName? hfound]
    exact ⟨fun h => h ▸ rfl, fun h => (Algorithm.name_injective h).symm⟩
  next hnone =>
    refine iff_of_false nofun fun h => ?_
    rw [← h, Algorithm.ofName?_name] at hnone
    cases hnone

/-- There are four names. -/
theorem exists_algorithm_iff {name : String} :
    (∃ algorithm : Algorithm, algorithm.name = name) ↔
      name ∈ ["cqa", "fdbet", "tdbet", "tta"] := by
  constructor
  · rintro ⟨algorithm, rfl⟩
    cases algorithm <;> decide
  · simp only [List.mem_cons, List.not_mem_nil, or_false]
    rintro (rfl | rfl | rfl | rfl)
    · exact ⟨.cqa, rfl⟩
    · exact ⟨.fdBet, rfl⟩
    · exact ⟨.tdBet, rfl⟩
    · exact ⟨.tta, rfl⟩

/-- The parameters are accepted as they are, if they are in range. -/
theorem config_eq_ok {d : SchedulerDraft} {config : SchedulerConfig} :
    d.config = .ok config ↔
      ((d.parameters.timeWindow.isNaN = true ∨ 1.0 ≤ d.parameters.timeWindow) ∧
        d.parameters.accessMcs ≤ 28) ∧ config = d.parameters := by
  have hone : (1.0 : Float).isNaN = false := rfl
  rw [← float_not_lt_iff hone]
  simp only [SchedulerDraft.config, ite_eq_ok, reduceCtorEq, and_false, false_or, Except.ok.injEq,
    Nat.not_lt, and_assoc, eq_comm (a := config)]
  rfl

end SchedulerDraft

/-! ## The reuse plan -/

/-- The bands that a rule cannot do without. -/
def PlanRule.fields : PlanRule → List BandField
  | .full | .distributed => []
  | .hard | .soft => [.downlink, .uplink]
  | .enhanced => [.downlink, .downlinkSecondary, .uplink, .uplinkSecondary]

/-- The room that a carrier has for a band: groups in the downlink, blocks in the uplink. -/
def BandField.room (c : Carrier) : BandField → Nat
  | .downlink | .downlinkSecondary => rbgCount c.downlinkBandwidth
  | .uplink | .uplinkSecondary => c.uplinkBandwidth

namespace PlanDraft

/-- The band that a draft gives in a field. -/
def band? (d : PlanDraft) : BandField → Option Band
  | .downlink => d.downlink
  | .uplink => d.uplink
  | .downlinkSecondary => d.downlinkSecondary
  | .uplinkSecondary => d.uplinkSecondary

/-- The bands that the rule needs are there and fit every carrier, and the groups that neighbours
announce, to a rule that listens, are those of every carrier. -/
structure Valid (d : PlanDraft) (carriers : List Carrier) : Prop where
  /-- Each band that the rule needs is there, has blocks, and fits in its grid on every carrier. -/
  bands : ∀ field ∈ d.rule.fields, ∃ band, d.band? field = some band ∧ 0 < band.width ∧
    ∀ c ∈ carriers, band.offset + band.width ≤ field.room c
  /-- Where announcements count, they are about groups of every carrier. -/
  announcements : d.rule = .distributed → ∀ a ∈ d.announcements, ∀ rbg ∈ a.2, ∀ c ∈ carriers,
    rbg < rbgCount c.downlinkBandwidth

/-- The plan that a draft describes. Bands that its rule does not need are passed over. -/
inductive Describes (d : PlanDraft) : ReusePlan → Prop
  /-- The whole band, with no thought of the neighbours. -/
  | full (hrule : d.rule = .full) : Describes d .full
  /-- One band in each direction, and nothing outside of it. -/
  | hard {downlink uplink : Band} (hrule : d.rule = .hard) (hdownlink : d.downlink = some downlink)
      (huplink : d.uplink = some uplink) : Describes d (.hard downlink uplink)
  /-- An edge band in each direction, for UEs below the threshold. -/
  | soft {downlink uplink : Band} (hrule : d.rule = .soft) (hdownlink : d.downlink = some downlink)
      (huplink : d.uplink = some uplink) : Describes d (.soft downlink uplink d.threshold)
  /-- Two bands in each direction, the second of which is for groups above the threshold. -/
  | enhanced {downlink downlinkSecondary uplink uplinkSecondary : Band}
      (hrule : d.rule = .enhanced) (hdownlink : d.downlink = some downlink)
      (hdownlinkSecondary : d.downlinkSecondary = some downlinkSecondary)
      (huplink : d.uplink = some uplink)
      (huplinkSecondary : d.uplinkSecondary = some uplinkSecondary) :
      Describes d (.enhanced downlink downlinkSecondary uplink uplinkSecondary d.threshold)
  /-- What the neighbours announce tells where UEs of the edge may be. -/
  | distributed (hrule : d.rule = .distributed) :
      Describes d (.distributed d.threshold d.announcements)

variable {d : PlanDraft} {plan : ReusePlan}

/-- A band that a rule needs has to be given. -/
theorem require_eq_ok {field : BandField} {band? : Option Band} {band : Band} :
    require field band? = .ok band ↔ band? = some band := by
  cases band? <;> simp [require]

/-- A plan is accepted if it is the one described. -/
theorem plan_eq_ok : d.plan = .ok plan ↔ d.Describes plan := by
  constructor
  · intro h
    cases hrule : d.rule <;>
      simp only [PlanDraft.plan, hrule, bind_eq_ok, pure_eq_ok, require_eq_ok] at h
    case full => exact h ▸ .full hrule
    case hard =>
      obtain ⟨_, hdownlink, _, huplink, rfl⟩ := h
      exact .hard hrule hdownlink huplink
    case soft =>
      obtain ⟨_, hdownlink, _, huplink, rfl⟩ := h
      exact .soft hrule hdownlink huplink
    case enhanced =>
      obtain ⟨_, hdownlink, _, hdownlinkSecondary, _, huplink, _, huplinkSecondary, rfl⟩ := h
      exact .enhanced hrule hdownlink hdownlinkSecondary huplink huplinkSecondary
    case distributed => exact h ▸ .distributed hrule
  · intro h
    cases h <;> simp only [PlanDraft.plan, *] <;> rfl

/-- A draft describes a plan if it gives the bands that the rule needs. -/
theorem exists_describes
    (h : ∀ field ∈ d.rule.fields, ∃ band, d.band? field = some band) :
    ∃ plan, d.Describes plan := by
  cases hrule : d.rule <;> simp only [hrule, PlanRule.fields, List.forall_mem_cons] at h
  case full => exact ⟨_, .full hrule⟩
  case hard =>
    obtain ⟨⟨_, hdownlink⟩, ⟨_, huplink⟩, -⟩ := h
    exact ⟨_, .hard hrule hdownlink huplink⟩
  case soft =>
    obtain ⟨⟨_, hdownlink⟩, ⟨_, huplink⟩, -⟩ := h
    exact ⟨_, .soft hrule hdownlink huplink⟩
  case enhanced =>
    obtain ⟨⟨_, hdownlink⟩, ⟨_, hdownlink'⟩, ⟨_, huplink⟩, ⟨_, huplink'⟩, -⟩ := h
    exact ⟨_, .enhanced hrule hdownlink hdownlink' huplink huplink'⟩
  case distributed => exact ⟨_, .distributed hrule⟩

/-- A plan has the bands that its rule needs, with the room that a carrier has for them. -/
theorem Describes.bands_eq (h : d.Describes plan) (c : Carrier) :
    (plan.bands (rbgCount c.downlinkBandwidth) c.uplinkBandwidth).map some =
      d.rule.fields.map fun field =>
        (d.band? field).map fun band => (field, band, field.room c) := by
  cases h <;> simp [ReusePlan.bands, PlanRule.fields, PlanDraft.band?, BandField.room, *]

/-- What holds of the bands of a plan holds of the bands that its rule needs. -/
theorem Describes.forall_bands (h : d.Describes plan) (c : Carrier)
    {P : BandField × Band × Nat → Prop} :
    (∀ entry ∈ plan.bands (rbgCount c.downlinkBandwidth) c.uplinkBandwidth, P entry) ↔
      ∀ field ∈ d.rule.fields,
        ∃ band, d.band? field = some band ∧ P (field, band, field.room c) := by
  have hbands := h.bands_eq c
  -- The bands of the plan are those of the fields that the rule needs, one by one.
  constructor
  · intro hall field hfield
    have hmem := List.mem_map_of_mem
      (f := fun field => (d.band? field).map fun band => (field, band, field.room c)) hfield
    rw [← hbands] at hmem
    obtain ⟨entry, hentry, heq⟩ := List.mem_map.1 hmem
    obtain ⟨band, hband, rfl⟩ := Option.map_eq_some_iff.1 heq.symm
    exact ⟨band, hband, hall _ hentry⟩
  · intro hall entry hentry
    have hmem := List.mem_map_of_mem (f := some) hentry
    rw [hbands] at hmem
    obtain ⟨field, hfield, heq⟩ := List.mem_map.1 hmem
    obtain ⟨band, hband, hP⟩ := hall field hfield
    rw [hband, Option.map_some, Option.some_inj] at heq
    exact heq ▸ hP

/-- Only a rule that listens has announcements. -/
theorem Describes.announcements_eq (h : d.Describes plan) :
    plan.announcements = if d.rule = .distributed then d.announcements else [] := by
  cases h <;> simp [ReusePlan.announcements, *]

end PlanDraft

/-- A plan suits a grid if its announcements and its bands do. -/
theorem ReusePlan.check_eq_ok {plan : ReusePlan} {rbgs blocks : Nat} {u : Unit} :
    plan.check rbgs blocks = .ok u ↔
      (∀ a ∈ plan.announcements, ∀ rbg ∈ a.2, rbg < rbgs) ∧
        ∀ entry ∈ plan.bands rbgs blocks, entry.2.1.fits entry.2.2 = true := by
  have hfault : plan.check rbgs blocks = .ok u ↔ plan.fault? rbgs blocks = none := by
    rw [check]
    cases plan.fault? rbgs blocks <;> simp
  simp [hfault, fault?, List.findSome?_eq_none_iff]

/-- A plan is checked against every carrier. -/
theorem Scenario.checkPlan_eq_ok {plan : ReusePlan} {index : Nat} {cs : List Carrier} {u : Unit} :
    checkPlan plan index cs = .ok u ↔
      ∀ c ∈ cs, plan.check (rbgCount c.downlinkBandwidth) c.uplinkBandwidth = .ok () := by
  induction cs generalizing index with
  | nil => simp [checkPlan]
  | cons c cs ih =>
    rw [checkPlan, bind_eq_ok, List.forall_mem_cons]
    simp only [mapError_eq_ok, ih]
    exact ⟨fun ⟨_, hc, hcs⟩ => ⟨hc, hcs⟩, fun ⟨hc, hcs⟩ => ⟨(), hc, hcs⟩⟩

/-- The plan that a draft describes suits every carrier if the draft is valid. -/
theorem PlanDraft.Describes.checkPlan_eq_ok {d : PlanDraft} {plan : ReusePlan}
    (h : d.Describes plan) {cs : List Carrier} (hcs : cs ≠ []) {u : Unit} :
    Scenario.checkPlan plan 0 cs = .ok u ↔ d.Valid cs := by
  simp only [Scenario.checkPlan_eq_ok, ReusePlan.check_eq_ok, h.forall_bands,
    h.announcements_eq, Band.fits, Bool.and_eq_true, decide_eq_true_eq]
  obtain ⟨c₀, hc₀⟩ := List.exists_mem_of_ne_nil cs hcs
  constructor
  · intro hall
    refine ⟨fun field hfield => ?_, fun hrule a ha rbg hrbg c hc => ?_⟩
    -- One band has to fit every carrier, so it is taken from one of them.
    · obtain ⟨band, hband, hwidth, -⟩ := (hall c₀ hc₀).2 field hfield
      refine ⟨band, hband, hwidth, fun c hc => ?_⟩
      obtain ⟨band', hband', -, hroom⟩ := (hall c hc).2 field hfield
      obtain rfl := Option.some.inj (hband.symm.trans hband')
      exact hroom
    · exact (hall c hc).1 a (by rwa [if_pos hrule]) rbg hrbg
  · intro hvalid c hc
    refine ⟨fun a ha rbg hrbg => ?_, fun field hfield => ?_⟩
    · split at ha
      next hrule => exact hvalid.announcements hrule a ha rbg hrbg c hc
      next => cases ha
    · obtain ⟨band, hband, hwidth, hroom⟩ := hvalid.bands field hfield
      exact ⟨band, hband, hwidth, hroom c hc⟩

/-! ## UEs -/

namespace UeDraft

/-- The parameters of a UE are in range, on a station with `carriers` carriers. -/
structure Valid (d : UeDraft) (carriers : Nat) : Prop where
  /-- Its identity is neither that of nobody nor the one for paging. -/
  rnti : d.rnti ≠ 0 ∧ d.rnti ≠ 0xFFFE
  /-- Its carrier is one of the scenario. -/
  carrier : d.carrier < carriers
  /-- There is such a transmission mode. -/
  mode : d.mode < 7
  /-- There is such a quality. -/
  widebandCqi : d.widebandCqi ≤ 15
  /-- There are such qualities. -/
  subbandCqi : ∀ cqi ∈ d.subbandCqi, cqi ≤ 15
  /-- It can tell a layer. -/
  rank : 1 ≤ d.rank

/-- What a draft describes. -/
def Describes (d : UeDraft) (ue : UeProfile) : Prop :=
  ∃ mode, TransmissionMode.ofIndex? d.mode = some mode ∧ ue =
    { rnti := d.rnti, carrier := d.carrier, mode, qci := d.qci, guaranteed := d.guaranteed
      downlinkLoad := d.downlinkLoad, uplinkLoad := d.uplinkLoad
      widebandCqi := d.widebandCqi, subbandCqi := d.subbandCqi, sinr := d.sinr
      rank := d.rank, nackEvery := d.nackEvery }

/-- A UE is known by its carrier and its RNTI there. -/
def identity (d : UeDraft) : Nat × Rnti := (d.carrier, d.rnti)

variable {carriers : Nat} {seen : List (Nat × Rnti)}

/-- A UE is accepted if it is in range, no other one has its name on its carrier, and its mode is
known. -/
theorem profile_eq_ok {d : UeDraft} {ue : UeProfile} :
    d.profile carriers seen = .ok ue ↔ d.Valid carriers ∧ d.identity ∉ seen ∧ d.Describes ue := by
  have hcqi : ¬(LinkAdaptation.maxCqi < d.widebandCqi ∨
      d.subbandCqi.any (LinkAdaptation.maxCqi < ·) = true) ↔
        d.widebandCqi ≤ 15 ∧ ∀ cqi ∈ d.subbandCqi, cqi ≤ 15 := by
    simp only [not_or, Nat.not_lt, List.any_eq_true, decide_eq_true_eq, not_exists, not_and]
    rfl
  -- The checks are made one after the other, and what is left behind them is the UE that is
  -- described.
  constructor
  · intro h
    simp only [profile, ite_eq_ok, reduceCtorEq, and_false, false_or, not_or, Nat.not_le] at h
    obtain ⟨hrnti, hcarrier, hseen, h⟩ := h
    split at h
    next => cases h
    next mode hmode =>
      simp only [ite_eq_ok, reduceCtorEq, and_false, false_or, hcqi, Except.ok.injEq] at h
      obtain ⟨⟨hwideband, hsubband⟩, hrank, rfl⟩ := h
      have hlt : d.mode < 7 := (List.getElem?_eq_some_iff.1 hmode).1
      exact ⟨⟨hrnti, hcarrier, hlt, hwideband, hsubband, Nat.pos_of_ne_zero hrank⟩, hseen, mode,
        hmode, rfl⟩
  · rintro ⟨hvalid, hseen, mode, hmode, rfl⟩
    have hrnti : ¬(d.rnti = 0 ∨ d.rnti = pagingRnti) := not_or.2 hvalid.rnti
    have hnew : (d.carrier, d.rnti) ∉ seen := hseen
    rw [profile, if_neg hrnti, if_neg (Nat.not_le.2 hvalid.carrier), if_neg hnew, hmode]
    dsimp only
    rw [if_neg (hcqi.2 ⟨hvalid.widebandCqi, hvalid.subbandCqi⟩),
      if_neg (Nat.ne_of_gt hvalid.rank)]

/-- Every valid draft describes a UE. -/
theorem Valid.exists_describes {d : UeDraft} (h : d.Valid carriers) : ∃ ue, d.Describes ue :=
  ⟨_, _, List.getElem?_eq_getElem h.mode, rfl⟩

/-- UEs are accepted if each of them is, and no two of one carrier have the same name. -/
theorem profiles_eq_ok {ds : List UeDraft} {ues : List UeProfile} :
    profiles carriers seen ds = .ok ues ↔
      (∀ d ∈ ds, d.Valid carriers ∧ d.identity ∉ seen) ∧ (ds.map identity).Nodup ∧
        List.Forall₂ Describes ds ues := by
  induction ds generalizing seen ues with
  | nil => simp [profiles, eq_comm]
  | cons d ds ih =>
    simp only [profiles, bind_eq_ok, pure_eq_ok, profile_eq_ok, ih, List.forall_mem_cons,
      List.map_cons, List.nodup_cons, List.forall₂_cons_left_iff]
    constructor
    -- The identities that the rest must not have are those before it, the one of `d` among them.
    · rintro ⟨ue, ⟨hvalid, hseen, hue⟩, rest, ⟨hvalids, hnodup, hrest⟩, rfl⟩
      refine ⟨⟨⟨hvalid, hseen⟩, fun d' hd' => ⟨(hvalids d' hd').1, ?_⟩⟩, ⟨?_, hnodup⟩, ue, rest,
        hue, hrest, rfl⟩
      · exact fun hmem => (hvalids d' hd').2 (List.mem_cons_of_mem _ hmem)
      · rw [List.mem_map]
        rintro ⟨d', hd', heq⟩
        exact (hvalids d' hd').2 (heq ▸ List.mem_cons_self)
    · rintro ⟨⟨⟨hvalid, hseen⟩, hvalids⟩, ⟨hnew, hnodup⟩, ue, rest, hue, hrest, rfl⟩
      refine ⟨ue, ⟨hvalid, hseen, hue⟩, rest,
        ⟨fun d' hd' => ⟨(hvalids d' hd').1, ?_⟩, hnodup, hrest⟩, rfl⟩
      rw [List.mem_cons, not_or]
      exact ⟨fun heq => hnew (List.mem_map.2 ⟨d', hd', heq⟩), (hvalids d' hd').2⟩

/-- Valid drafts describe UEs, in their order. -/
theorem exists_forall₂_describes {ds : List UeDraft} (h : ∀ d ∈ ds, d.Valid carriers) :
    ∃ ues, List.Forall₂ Describes ds ues := by
  induction ds with
  | nil => exact ⟨[], .nil⟩
  | cons d ds ih =>
    obtain ⟨hd, hds⟩ := List.forall_mem_cons.1 h
    obtain ⟨ue, hue⟩ := hd.exists_describes
    obtain ⟨ues, hues⟩ := ih hds
    exact ⟨ue :: ues, .cons hue hues⟩

end UeDraft

/-! ## Drafts -/

/-- What the checks of a draft amount to. A draft without carriers is for the usual one, and its
bands and UEs are checked against that. -/
structure ScenarioDraft.Valid (d : ScenarioDraft) : Prop where
  /-- If there are carriers, they are in range, and one of them is the primary one. -/
  carriers : d.carriers = [] ∨
    (∀ c ∈ d.carriers, c.Valid) ∧ d.carriers.countP (·.primary) = 1
  /-- The scheduler is in range. -/
  scheduler : d.scheduler.Valid
  /-- The reuse plan fits the carriers. -/
  plan : d.plan.Valid (Scenario.describedCarriers d.carriers)
  /-- The UEs are in range. -/
  ues : ∀ u ∈ d.ues, u.Valid (Scenario.describedCarriers d.carriers).length
  /-- No two UEs of a carrier have the same identity. -/
  distinct : (d.ues.map (·.identity)).Nodup

/-- What a draft describes: its lists are kept in their order. -/
structure ScenarioDraft.Describes (d : ScenarioDraft) (s : Scenario) : Prop where
  /-- The carriers are those of the draft, or the usual one. -/
  carriers : s.carriers = Scenario.describedCarriers d.carriers
  /-- The algorithm is the named one. -/
  algorithm : s.algorithm.name = d.scheduler.algorithmName
  /-- Parameters that the draft does not give have their usual values. -/
  config : s.config = d.scheduler.parameters
  /-- The reuse plan is that of the draft. -/
  plan : d.plan.Describes s.plan
  /-- So are the UEs. -/
  ues : List.Forall₂ UeDraft.Describes d.ues s.ues
  /-- So is the length. -/
  subframes : s.subframes = d.subframes

namespace Scenario

/-- A draft is accepted as a scenario if it is valid and describes the scenario. -/
theorem ofDraft_eq_ok {d : ScenarioDraft} {s : Scenario} :
    ofDraft d = .ok s ↔ d.Valid ∧ d.Describes s := by
  have hcs := describedCarriers_ne_nil d.carriers
  simp only [ofDraft, bind_eq_ok, pure_eq_ok, carriersOf_eq_ok,
    SchedulerDraft.algorithmOrDefault_eq_ok, SchedulerDraft.config_eq_ok, PlanDraft.plan_eq_ok,
    UeDraft.profiles_eq_ok]
  constructor
  · rintro ⟨_, ⟨hcarriers, rfl⟩, algorithm, halgorithm, _, ⟨⟨hwindow, hmcs⟩, rfl⟩, plan, hplan, _,
      hcheck, ues, ⟨hvalid, hnodup, hues⟩, rfl⟩
    refine ⟨⟨hcarriers, ⟨?_, hwindow, hmcs⟩, (hplan.checkPlan_eq_ok hcs).1 hcheck,
      fun u hu => (hvalid u hu).1, hnodup⟩, ⟨rfl, halgorithm, rfl, hplan, hues, rfl⟩⟩
    exact SchedulerDraft.exists_algorithm_iff.1 ⟨algorithm, halgorithm⟩
  · rintro ⟨hvalid, hdescribes⟩
    obtain ⟨carriers, algorithm, config, plan, ues, subframes⟩ := s
    obtain ⟨rfl, halgorithm, rfl, hplan, hues, rfl⟩ := hdescribes
    exact ⟨_, ⟨hvalid.carriers, rfl⟩, algorithm, halgorithm, _,
      ⟨⟨hvalid.scheduler.window, hvalid.scheduler.accessMcs⟩, rfl⟩, plan, hplan, (),
      (hplan.checkPlan_eq_ok hcs).2 hvalid.plan, ues,
      ⟨fun u hu => ⟨hvalid.ues u hu, List.not_mem_nil⟩, hvalid.distinct, hues⟩, rfl⟩

/-- A valid draft describes a scenario. -/
theorem exists_describes {d : ScenarioDraft} (h : d.Valid) : ∃ s, d.Describes s := by
  obtain ⟨algorithm, halgorithm⟩ :=
    SchedulerDraft.exists_algorithm_iff.2 h.scheduler.algorithm
  obtain ⟨plan, hplan⟩ := PlanDraft.exists_describes fun field hfield =>
    (h.plan.bands field hfield).imp fun _ hband => hband.1
  obtain ⟨ues, hues⟩ := UeDraft.exists_forall₂_describes h.ues
  exact ⟨⟨_, algorithm, _, plan, ues, _⟩, rfl, halgorithm, rfl, hplan, hues, rfl⟩

/-- The drafts that are accepted are the valid ones, and they become what they describe. There is no
order among the conditions: which of several faults is reported depends on it, but whether a draft
is accepted does not. -/
theorem ofDraft_exact (d : ScenarioDraft) :
    ((∃ s, ofDraft d = .ok s) ↔ d.Valid) ∧ ∀ s, ofDraft d = .ok s → d.Describes s := by
  refine ⟨⟨fun ⟨s, hs⟩ => (ofDraft_eq_ok.1 hs).1, fun h => ?_⟩, fun s hs => (ofDraft_eq_ok.1 hs).2⟩
  exact (exists_describes h).imp fun s hs => ofDraft_eq_ok.2 ⟨h, hs⟩

/-- Two carriers of different sizes, whose plan just fits the smaller one, and UEs that share an
RNTI. -/
def twoCarriers (downlink : Band) : ScenarioDraft where
  carriers := [{ primary := true }, { downlinkBandwidth := 6, uplinkBandwidth := 15 }]
  scheduler := { algorithm := some "TTA" }
  plan := { rule := .hard, downlink := some downlink, uplink := some ⟨0, 15⟩ }
  ues := [{ rnti := 1, carrier := 1, mode := 6, subbandCqi := [15, 0] }, { rnti := 1 }]

/-- The draft is accepted, and refused with a band that is too wide for the smaller carrier. -/
theorem ofDraft_exact_twoCarriers :
    (∃ s, ofDraft (twoCarriers ⟨1, 5⟩) = .ok s ∧ (twoCarriers ⟨1, 5⟩).Valid ∧
      (twoCarriers ⟨1, 5⟩).Describes s ∧ s.ues.map (·.subbandCqi) = [[15, 0], []]) ∧
    ¬(twoCarriers ⟨1, 6⟩).Valid := by
  have haccepted : ((ofDraft (twoCarriers ⟨1, 5⟩)).toOption.any fun s =>
      s.ues.map (·.subbandCqi) == [[15, 0], []]) = true := by decide +kernel
  have hrefused : (ofDraft (twoCarriers ⟨1, 6⟩)).toOption.isNone = true := by decide +kernel
  obtain ⟨hvalid, hdescribes⟩ := ofDraft_exact (twoCarriers ⟨1, 5⟩)
  refine ⟨?_, fun h => ?_⟩
  · cases hs : ofDraft (twoCarriers ⟨1, 5⟩) with
    | error cause => simp [hs, Except.toOption] at haccepted
    | ok s =>
      simp only [hs, Except.toOption, Option.any_some, beq_iff_eq] at haccepted
      exact ⟨s, rfl, hvalid.1 ⟨s, hs⟩, hdescribes s hs, haccepted⟩
  · obtain ⟨s, hs⟩ := (ofDraft_exact (twoCarriers ⟨1, 6⟩)).1.2 h
    simp [hs, Except.toOption] at hrefused

/-- A file whose window is not a number is accepted, though the window is not at least one. The
check refuses windows that are less than one, and what is not a number is not less than anything. -/
theorem windowless_accepted :
    ∃ d s, ScenarioDraft.parse? "scheduler:\n  time_window: .nan\n" = some d ∧
      ofDraft d = .ok s ∧ s.config.timeWindow.isNaN = true ∧
      ¬1.0 ≤ d.scheduler.parameters.timeWindow := by
  have hcheck : ((ScenarioDraft.parse? "scheduler:\n  time_window: .nan\n").any fun d =>
      (ofDraft d).toOption.any fun s => s.config.timeWindow.isNaN &&
        !decide (1.0 ≤ d.scheduler.parameters.timeWindow)) = true := by decide +kernel
  simp only [Option.any_eq_true, Bool.and_eq_true, Bool.not_eq_true', decide_eq_false_iff_not]
    at hcheck
  obtain ⟨d, hd, s, hs, hnan, hwindow⟩ := hcheck
  cases hok : ofDraft d with
  | error cause => simp [hok, Except.toOption] at hs
  | ok s' =>
    obtain rfl : s' = s := by simpa [hok, Except.toOption] using hs
    exact ⟨d, s', hd, hok, hnan, hwindow⟩

end Scenario

end LteMac
