import LteMac.Proofs.Reuse.Memory
import LteMac.Proofs.Scheduler.Accepted
import LteMac.Scenario.Check

/-!
# Accepted scenarios

What a scenario that is run has passed: every carrier has standard bandwidths, and on the grid of a
carrier the reuse plan stands for a policy that fits the grid and has learned nothing yet.

* `Scenario.Accepted`: the scenarios that are run;
* `Scenario.Accepted.isStandard`: their carriers;
* `ReusePlan.fits_policy`, `ReusePlan.blank_policy`: what a plan stands for.
-/

namespace LteMac

/-- The scenarios that are run: the one where none is described, and those a draft describes. -/
def Scenario.Accepted (s : Scenario) : Prop :=
  s = .default ∨ ∃ d, Scenario.ofDraft d = .ok s

theorem mapError_eq_ok {ε ε' α : Type} {x : Except ε α} {f : ε → ε'} {a : α} :
    x.mapError f = .ok a ↔ x = .ok a := by
  cases x <;> simp [Except.mapError]

theorem Algorithm.ofName?_name (algorithm : Algorithm) :
    ofName? algorithm.name = some algorithm := by
  cases algorithm <;> decide

/-! ## Carriers -/

/-- The bandwidths of a carrier are standard ones. -/
def Carrier.IsStandard (c : Carrier) : Prop :=
  c.downlinkBandwidth ∈ standardBandwidths ∧ c.uplinkBandwidth ∈ standardBandwidths

theorem checkBandwidth_eq_ok {value n : Nat} :
    checkBandwidth value = .ok n ↔ value ∈ standardBandwidths ∧ value = n := by
  rw [checkBandwidth]
  split <;> simp [*]

theorem CarrierDraft.isStandard_carrier {d : CarrierDraft} {c : Carrier}
    (h : d.carrier = .ok c) : c.IsStandard := by
  simp only [CarrierDraft.carrier, bind_eq_ok, Carrier.setDownlinkBandwidth,
    Carrier.setUplinkBandwidth, checkBandwidth_eq_ok, pure_eq_ok, Carrier.setDownlinkChannel,
    Carrier.setUplinkChannel, ite_eq_ok, reduceCtorEq, and_false, or_false, Except.ok.injEq] at h
  obtain ⟨_, ⟨n, ⟨hd, rfl⟩, rfl⟩, _, ⟨m, ⟨hu, rfl⟩, rfl⟩, _, ⟨-, rfl⟩, _, ⟨-, rfl⟩, rfl⟩ := h
  exact ⟨hd, hu⟩

namespace Scenario

theorem isStandard_carriersFrom {ds : List CarrierDraft} {index : Nat} {cs : List Carrier}
    (h : carriersFrom index ds = .ok cs) : ∀ c ∈ cs, c.IsStandard := by
  induction ds generalizing index cs with
  | nil =>
    obtain rfl := Except.ok.inj h
    simp
  | cons d ds ih =>
    simp only [carriersFrom, bind_eq_ok, mapError_eq_ok, pure_eq_ok] at h
    obtain ⟨c, hc, rest, hrest, rfl⟩ := h
    exact List.forall_mem_cons.2 ⟨CarrierDraft.isStandard_carrier hc, ih hrest⟩

theorem isStandard_carriersOf {ds : List CarrierDraft} {cs : List Carrier}
    (h : carriersOf ds = .ok cs) : ∀ c ∈ cs, c.IsStandard := by
  cases ds with
  | nil =>
    obtain rfl := Except.ok.inj h
    simp [defaultCarrier, Carrier.IsStandard, Carrier.default, Carrier.setPrimary,
      standardBandwidths]
  | cons d ds =>
    simp only [carriersOf, bind_eq_ok, pure_eq_ok] at h
    obtain ⟨cs, hcs, -, -, rfl⟩ := h
    exact isStandard_carriersFrom hcs

/-- The carriers of a scenario that is run have standard bandwidths. -/
theorem Accepted.isStandard {s : Scenario} (h : s.Accepted) : ∀ c ∈ s.carriers, c.IsStandard := by
  rcases h with rfl | ⟨d, h⟩
  · have hcarriers : carriersOf [] = .ok Scenario.default.carriers := rfl
    exact isStandard_carriersOf hcarriers
  · simp only [ofDraft, bind_eq_ok, pure_eq_ok] at h
    obtain ⟨cs, hcs, -, -, -, -, -, -, -, -, -, -, rfl⟩ := h
    exact isStandard_carriersOf hcs

end Scenario

/-! ## Plans -/

namespace ReusePlan

/-- A policy for a grid of this size that has learned nothing. -/
structure Blank (rbgs blocks : Nat) (p : ReusePolicy) : Prop where
  /-- It is for so many downlink groups. -/
  rbgs : p.rbgs = rbgs
  /-- It is for so many uplink blocks. -/
  blocks : p.blocks = blocks
  /-- It remembers nothing of anybody. -/
  memory : ∀ r, p.memory r = .blank

theorem Blank.hear {rbgs blocks : Nat} {p : ReusePolicy} (h : Blank rbgs blocks p) (cell : UInt16)
    (high : List Bool) : Blank rbgs blocks ((p.hear? cell high).getD p) := by
  obtain ⟨rbgs', blocks', rule⟩ := p
  cases rule with
  | distributed zones announced => exact ⟨h.rbgs, h.blocks, h.memory⟩
  | _ => exact h

/-- The policy of a plan is for the grid that it is asked for, and has learned nothing. -/
theorem blank_policy (plan : ReusePlan) (rbgs blocks : Nat) :
    Blank rbgs blocks (plan.policy rbgs blocks) := by
  cases plan with
  | full | hard => exact ⟨rfl, rfl, fun _ => rfl⟩
  | soft | enhanced =>
    exact ⟨rfl, rfl, fun _ => by
      simp [policy, ReusePolicy.soft, ReusePolicy.enhanced, ReusePolicy.memory, ZoneMap.empty,
        ReusePolicy.Memory.blank]⟩
  | distributed threshold announcements =>
    refine List.foldlRecOn _ _ ⟨rfl, rfl, fun _ => ?_⟩ fun p h a _ => h.hear ..
    simp [ReusePolicy.distributed, ReusePolicy.memory, ZoneMap.empty, ReusePolicy.Memory.blank]

/-- A plan fits the grid that it is asked for. -/
theorem fits_policy (plan : ReusePlan) (grid : Grid) :
    SchedulerState.requireFit (plan.policy grid.rbgCount grid.uplink) grid = .ok () := by
  have h := plan.blank_policy grid.rbgCount grid.uplink
  simp [SchedulerState.requireFit, ReusePolicy.downlinkFlags, ReusePolicy.uplinkFlags, flags,
    h.rbgs, h.blocks]

end ReusePlan

end LteMac
