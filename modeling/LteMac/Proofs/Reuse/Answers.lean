import LteMac.Proofs.Reuse.Memory
import LteMac.Scheduler.Error

/-!
# What a reuse policy answers

A trigger asks a reuse policy for its cell-wide flags, which blocks of its direction a UE may use,
and how loud the UE shall send. Two policies with the same answers can take each other's place
(`ReusePolicy.Agrees`), and what a policy remembers of a UE can be forgotten without a change of its
answers in some cases only (`ReusePolicy.Indifferent`).

The cases are told by what is remembered, rule by rule, so that they can be decided by looking at
the policy: the zone where a rule goes by zones, and the reported qualities where it goes by
qualities. The comparison with the answers shows that the list is complete and has nothing too much
on it.

* `ReusePolicy.indifferent_iff`: exactly these are the cases.
-/

namespace LteMac.ReusePolicy

/-- Whether a UE may use a block of a direction. -/
def allowed (p : ReusePolicy) : Direction → Nat → Rnti → Bool
  | .downlink => p.downlinkAllowed
  | .uplink => p.uplinkAllowed

/-- Two policies give the same answers to a trigger of a direction. -/
structure Agrees (d : Direction) (p p' : ReusePolicy) : Prop where
  /-- The downlink groups that the cell may use. -/
  downlinkFlags : p'.downlinkFlags = p.downlinkFlags
  /-- The uplink blocks that the cell may use. -/
  uplinkFlags : p'.uplinkFlags = p.uplinkFlags
  /-- The widest uplink grant there is room for. -/
  contiguousBlocks : p'.contiguousBlocks = p.contiguousBlocks
  /-- What each UE may use in the direction. -/
  allowed : p'.allowed d = p.allowed d
  /-- How loud each UE shall send. -/
  powerCommand : p'.powerCommand = p.powerCommand

/-- What is remembered of a UE makes no difference in a direction. By its zone it is a centre UE,
like one that has not reported. Where the qualities count, none of them opens a block of the
secondary band to the UE that the primary band has not. -/
def Indifferent (p : ReusePolicy) (d : Direction) (r : Rnti) : Prop :=
  match p.rule, d with
  | .full, _ | .hard .., _ => True
  | .soft _ _ zones, _ | .distributed zones _, _ => zones.zone r = .centre
  | .enhanced primary secondary _ _ threshold subband _, .downlink =>
    ∀ i < p.rbgs, primary.contains i = false → secondary.contains i = true →
      (subband[r]?.bind (·[i]?)).any (threshold ≤ ·) = false
  | .enhanced _ _ primary secondary threshold _ wideband, .uplink =>
    ∀ i < p.blocks, primary.contains i = false → secondary.contains i = true →
      wideband[r]?.any (threshold ≤ ·) = false

instance (p : ReusePolicy) (d : Direction) (r : Rnti) : Decidable (p.Indifferent d r) :=
  match p, d with
  | ⟨_, _, .full⟩, _ | ⟨_, _, .hard ..⟩, _ => .isTrue trivial
  | ⟨_, _, .soft _ _ zones⟩, _ | ⟨_, _, .distributed zones _⟩, _ =>
    inferInstanceAs (Decidable (zones.zone r = .centre))
  | ⟨rbgs, _, .enhanced primary secondary _ _ threshold subband _⟩, .downlink =>
    inferInstanceAs (Decidable (∀ i < rbgs, primary.contains i = false →
      secondary.contains i = true → (subband[r]?.bind (·[i]?)).any (threshold ≤ ·) = false))
  | ⟨_, blocks, .enhanced _ _ primary secondary threshold _ wideband⟩, .uplink =>
    inferInstanceAs (Decidable (∀ i < blocks, primary.contains i = false →
      secondary.contains i = true → wideband[r]?.any (threshold ≤ ·) = false))

variable {p : ReusePolicy} {d : Direction} {r : Rnti}

/-- Forgetting a UE only makes a difference by the answers about it. -/
theorem agrees_forget_iff : p.Agrees d (p.forget r) ↔
    (∀ i, (p.forget r).allowed d i r = p.allowed d i r) ∧
      (p.forget r).powerCommand r = p.powerCommand r := by
  constructor
  · intro h
    exact ⟨fun i => congrFun (congrFun h.allowed i) r, congrFun h.powerCommand r⟩
  · rintro ⟨hallowed, hpower⟩
    obtain ⟨hdownlink, huplink, hblocks⟩ := p.flags_forget r
    refine ⟨hdownlink, huplink, hblocks, funext fun i => funext fun r' => ?_, funext fun r' => ?_⟩
    · by_cases hr : r' = r
      · exact hr ▸ hallowed i
      · cases d with
        | downlink => exact (alike_forget hr).downlink i
        | uplink => exact (alike_forget hr).uplink i
    · by_cases hr : r' = r
      · exact hr ▸ hpower
      · exact (alike_forget hr).power

/-- A UE that is forgotten is in the centre. -/
theorem zone_forget (zones : ZoneMap) (r : Rnti) : (zones.forget r).zone r = .centre := by
  rw [ZoneMap.zone, ZoneMap.forget, Table.getElem?_erase, if_pos rfl]
  rfl

/-- The power command tells the zone of a UE. -/
theorem power_eq_iff {zone : Zone} :
    (if Zone.centre = .edge then tpcBoost else tpcNeutral) =
      (if zone = .edge then tpcBoost else tpcNeutral) ↔ zone = .centre := by
  cases zone <;> decide

/-- A block is as open to a UE without qualities as to one with them, unless they open it. -/
theorem open_eq_iff {inside primary secondary good : Bool} :
    (inside && (primary || secondary && false)) = (inside && (primary || secondary && good)) ↔
      (inside = true → primary = false → secondary = true → good = false) := by
  cases inside <;> cases primary <;> cases secondary <;> cases good <;> decide

/-- A policy is indifferent to what it remembers exactly if it answers as if it had forgotten it. -/
theorem indifferent_iff : p.Indifferent d r ↔ p.Agrees d (p.forget r) := by
  rw [agrees_forget_iff]
  obtain ⟨rbgs, blocks, rule⟩ := p
  cases rule with
  | full => exact iff_of_true trivial ⟨fun _ => rfl, rfl⟩
  | hard downlink uplink => exact iff_of_true trivial ⟨fun _ => rfl, rfl⟩
  | soft downlink uplink zones =>
    constructor
    · intro hcentre
      have hzone := (zone_forget zones r).trans hcentre.symm
      refine ⟨fun i => ?_, congrArg (fun z => if z = Zone.edge then tpcBoost else tpcNeutral) hzone⟩
      cases d with
      | downlink =>
        exact congrArg (fun z => decide (i < rbgs) && _ == (z == Zone.edge)) hzone
      | uplink => exact congrArg (fun z => decide (i < blocks) && _ == (z == Zone.edge)) hzone
    · intro h
      exact power_eq_iff.1 (zone_forget zones r ▸ h.2)
  | distributed zones announced =>
    constructor
    · intro hcentre
      have hzone := (zone_forget zones r).trans hcentre.symm
      refine ⟨fun i => ?_, congrArg (fun z => if z = Zone.edge then tpcBoost else tpcNeutral) hzone⟩
      cases d with
      | downlink =>
        exact congrArg (fun z => decide (i < rbgs) && (z == Zone.centre || _)) hzone
      | uplink => rfl
    · intro h
      exact power_eq_iff.1 (zone_forget zones r ▸ h.2)
  | enhanced dp ds up us threshold subband wideband =>
    -- The power command is always the same, so block by block only the qualities count.
    refine Iff.trans ?_ (and_iff_left rfl).symm
    cases d with
    | downlink =>
      refine forall_congr' fun i => Iff.symm ?_
      simp only [allowed, forget, downlinkAllowed, Table.getElem?_erase, if_true, Option.bind_none,
        Option.any_none]
      exact open_eq_iff.trans (imp_congr_left decide_eq_true_iff)
    | uplink =>
      refine forall_congr' fun i => Iff.symm ?_
      simp only [allowed, forget, uplinkAllowed, Table.getElem?_erase, if_true, Option.any_none]
      exact open_eq_iff.trans (imp_congr_left decide_eq_true_iff)

end LteMac.ReusePolicy
