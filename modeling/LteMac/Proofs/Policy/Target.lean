import LteMac.Proofs.Numeric.Nonneg
import LteMac.Proofs.Scheduler.Bearers

/-!
# The rate that a UE is guaranteed

The channel and QoS aware policy keeps the guaranteed rate of each UE in its record, so that it need
not add up the bearers in every subframe. The rate in the record is that of the bearers in every
state: the requests that change the bearers have it computed anew, and none of the others, the
triggers that rewrite the record among them, changes it.

The sum is one of floating-point numbers, so the order of the bearers matters in principle; it is
the order of their channels, in the record and in the statement. The policy begins its sum with the
negative zero, as sums of no numbers do. That differs from zero in its sign bit until something is
added, and is equal to it as a number all the time, so rates are compared as numbers.

* `guaranteedRate`: the rate of some bearers, added up in their order;
* `targetOf_beq`: what the policy computes is this rate;
* `Run.target_eq_guaranteedRate`: in a run, the record of a UE has the rate of the bearers that the
  requests left it.
-/

namespace LteMac

/-- A rate in bytes per second, with what a bearer is guaranteed in bits per second. -/
def addGuarantee (rate : Float) (bearer : Bearer) : Float :=
  match bearer.guaranteed with
  | none => rate
  | some bits => rate + Float.ofNat bits / 8.0

/-- The guaranteed rate of some bearers, in bytes per second, added up in their order. -/
def guaranteedRate (bearers : List Bearer) : Float := bearers.foldl addGuarantee 0.0

/-! ## The sum -/

section Sum

variable {x : Float} {bearer : Bearer} {bits : Nat}

/-- What is not negative is a number, and equal to itself. -/
theorem FloatNonneg.beq_self (h : FloatNonneg x) : (x == x) = true :=
  (float_beq_iff h.isNaN h.isNaN).2 rfl

/-- A bearer without a guarantee adds nothing. -/
theorem addGuarantee_none (h : bearer.guaranteed = none) : addGuarantee x bearer = x := by
  rw [addGuarantee, h]

/-- A guarantee is stated in bits, and adds bytes. -/
theorem addGuarantee_some (h : bearer.guaranteed = some bits) :
    addGuarantee x bearer = x + Float.ofNat bits / 8.0 := by
  rw [addGuarantee, h]

/-- What a bearer is guaranteed is not negative. -/
theorem FloatNonneg.addGuarantee (h : FloatNonneg x) (bearer : Bearer) :
    FloatNonneg (addGuarantee x bearer) := by
  cases hb : bearer.guaranteed with
  | none => rwa [addGuarantee_none hb]
  | some bits =>
    rw [addGuarantee_some hb]
    exact h.add (floatNonneg_ofNat bits).div_eight

/-- Nor are the guarantees of several bearers. -/
theorem FloatNonneg.foldl_addGuarantee (h : FloatNonneg x) (bearers : List Bearer) :
    FloatNonneg (bearers.foldl LteMac.addGuarantee x) :=
  List.foldlRecOn bearers _ h fun _ h bearer _ => h.addGuarantee bearer

/-- What the policy computes begins with the negative zero, as a sum of no numbers does. -/
theorem targetOf_eq_foldl (bearers : List Bearer) :
    QosRecord.targetOf bearers = bearers.foldl addGuarantee (-0.0) := by
  have hsum : ∀ rate : Float, ((bearers.filterMap (·.guaranteed)).map
      fun bits => Float.ofNat bits / 8.0).foldl (· + ·) rate = bearers.foldl addGuarantee rate := by
    induction bearers with
    | nil => exact fun _ => rfl
    | cons b bs ih =>
      intro rate
      cases hb : b.guaranteed with
      | none => rw [List.filterMap_cons_none hb, List.foldl_cons, addGuarantee_none hb, ih]
      | some bits =>
        rw [List.filterMap_cons_some hb, List.map_cons, List.foldl_cons, List.foldl_cons,
          addGuarantee_some hb, ih]
  exact hsum _

/-- What the policy computes is the rate: once something is added, the zero does not matter. -/
theorem targetOf_beq (bearers : List Bearer) :
    (QosRecord.targetOf bearers == guaranteedRate bearers) = true := by
  rw [targetOf_eq_foldl, guaranteedRate]
  induction bearers with
  | nil => rfl
  | cons b bs ih =>
    rw [List.foldl_cons, List.foldl_cons]
    cases hb : b.guaranteed with
    | none => rwa [addGuarantee_none hb, addGuarantee_none hb]
    | some bits =>
      have hrate := (floatNonneg_ofNat bits).div_eight
      rw [addGuarantee_some hb, addGuarantee_some hb, hrate.neg_zero_add]
      exact ((floatNonneg_zero.add hrate).foldl_addGuarantee bs).beq_self

end Sum

/-! ## The record -/

/-- Every record of the policy has the rate of the bearers of its UE. -/
def SchedulerState.TargetsMet (s : SchedulerState QosRecord) : Prop :=
  ∀ (r : Rnti) (u : DownlinkUe QosRecord), s.downlink.ues[r]? = some u →
    (u.record.target == guaranteedRate (s.bearers r)) = true

variable {kind : ChannelMetric} {width : Nat} {config : SchedulerConfig}
  {es : List (Event QosRecord)} {s s' : SchedulerState QosRecord} {q : Request}
  {said : List Indication} {r : Rnti}

/-- An accepted request keeps the rates: where the bearers change, the policy is told. -/
theorem SchedulerState.TargetsMet.of_step (h : s.TargetsMet)
    (hstep : s.step (Policy.cqa kind width) q = .ok (s', said)) : s'.TargetsMet := by
  intro r u' hu'
  cases recording_of_step hstep r with
  | added hchannels hrecord =>
    -- A fresh record has no rate, and the UE no bearers, whatever it had before.
    rw [hu', Option.map_some, Option.some_inj] at hrecord
    have hnone : s'.bearers r = [] := by
      refine List.eq_nil_iff_forall_not_mem.2 fun bearer hbearer => ?_
      rw [bearers_eq, hchannels, Option.elim_some, Table.mem_values] at hbearer
      exact absurd hbearer (by simp)
    rw [hrecord, hnone]
    exact floatNonneg_zero.beq_self
  | removed _ hnone => cases hnone.symm.trans hu'
  | told hrecord =>
    obtain ⟨u, -, htold⟩ := exists_of_map_eq hrecord hu'
    rw [htold]
    exact targetOf_beq _
  | recorded bytes hchannels hrecord =>
    obtain ⟨u, hu, hrecorded⟩ := exists_of_map_eq hrecord hu'
    rw [hrecorded, bearers_congr hchannels]
    exact h r u hu
  | kept hchannels hrecord =>
    obtain ⟨u, hu, hkept⟩ := exists_of_map_eq hrecord hu'
    rw [hkept, bearers_congr hchannels]
    exact h r u hu

/-- Along a run, every record has the rate of the bearers of its UE. -/
theorem Run.targetsMet (h : Run (Policy.cqa kind width) config es s) : s.TargetsMet :=
  h.invariant (P := fun _ s => s.TargetsMet) (fun r u hu => by simp [SchedulerState.initial] at hu)
    fun _ hs hstep => hs.of_step hstep

/-- In a run of the channel and QoS aware policy, the record of every configured UE has the
guaranteed rate of its bearers, ascending. These are the ones that the requests left the UE: of each
channel the one that was configured last, unless it was released since. -/
theorem Run.target_eq_guaranteedRate (h : Run (Algorithm.cqa.policy config) config es s)
    (hr : r ∈ s.ues) :
    ∃ u bearers, s.downlink.ues[r]? = some u ∧ bearers.Pairwise (·.lcid < ·.lcid) ∧
      (∀ bearer, bearer ∈ bearers ↔ bearerOf es r bearer.lcid = some bearer) ∧
      (u.record.target == guaranteedRate bearers) = true := by
  obtain ⟨u, hu⟩ := Table.exists_of_mem ((h.reachable.consistent.downlink.records.keys r).2 hr)
  exact ⟨u, s.bearers r, hu, h.bearers_ascending r, fun _ => h.mem_bearers, h.targetsMet r u hu⟩

/-- A UE gets two guarantees, and one on the common channel, which does not count. The first is lost
to a bearer without one, and given again. A trigger follows, the other bearer is released twice
over, and then the UE comes back with other bearers. -/
def guaranteesMoved : List Request :=
  [.connect true true, .configureCell 6 6, .configureUe 1 .singleAntenna,
    .configureBearers 1 [⟨3, some 800⟩, ⟨0, some 8⟩, ⟨2, some 1600⟩],
    .configureBearers 1 [⟨3, none⟩], .configureBearers 1 [⟨3, some 80⟩], .downlinkTrigger [],
    .releaseBearers 1 [2, 2], .reconfigureUe 1 .transmitDiversity, .releaseUe 1,
    .configureUe 1 .singleAntenna]

/-- The target follows the bearers in every state. -/
theorem target_eq_guaranteedRate_guaranteesMoved :
    ∃ (es : List (Event QosRecord)) (s : SchedulerState QosRecord) (u : DownlinkUe QosRecord)
      (bearers : List Bearer), Run (Algorithm.cqa.policy .default) .default es s ∧
      s.downlink.ues[(1 : Rnti)]? = some u ∧ bearers.Pairwise (·.lcid < ·.lcid) ∧
      (∀ bearer, bearer ∈ bearers ↔ bearerOf es 1 bearer.lcid = some bearer) ∧
      (u.record.target == guaranteedRate bearers) = true ∧ (u.record.target == 5.0) = true ∧
      (es.map (fun e => e.after.downlink.ues[(1 : Rnti)]?.map fun u =>
          QosRecord.target u.record) ==
        [none, none, some 0.0, some 300.0, some 200.0, some 210.0, some 210.0, some 10.0,
          some 10.0, none, some 0.0, some 5.0]) = true := by
  obtain ⟨es, e, hrun, hstep, hcheck⟩ := Run.of_replay_step (Algorithm.cqa.policy .default)
    .default guaranteesMoved (.configureBearers 1 [⟨4, some 24⟩, ⟨5, none⟩, ⟨4, some 40⟩])
    (fun es e => e.after.ues.contains 1 &&
      e.after.downlink.ues[(1 : Rnti)]?.any (fun u => QosRecord.target u.record == 5.0) &&
      (es ++ [e]).map (fun e => e.after.downlink.ues[(1 : Rnti)]?.map fun u =>
          QosRecord.target u.record) ==
        [none, none, some 0.0, some 300.0, some 200.0, some 210.0, some 210.0, some 10.0,
          some 10.0, none, some 0.0, some 5.0])
    (by decide +kernel)
  have hrun := hrun.step hstep
  simp only [Bool.and_eq_true, Option.any_eq_true] at hcheck
  obtain ⟨⟨hknown, u, hu, htarget⟩, htargets⟩ := hcheck
  obtain ⟨u₀, bearers, hu₀, hascending, hmem, hmet⟩ :=
    hrun.target_eq_guaranteedRate (Std.ExtTreeMap.mem_iff_contains.2 hknown)
  obtain rfl := Option.some.inj (hu₀.symm.trans hu)
  refine ⟨_, e.after, u₀, bearers, hrun, hu, hascending, hmem, hmet, htarget, ?_⟩
  rw [List.map_append] at htargets
  exact (congrArg (· == _) List.map_append).trans htargets

end LteMac
