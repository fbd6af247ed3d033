import LteMac.Proofs.Downlink.Trigger
import LteMac.Proofs.Scheduler.Effect

/-!
# The standing invariant

What every reachable state of a scheduler has in common (`SchedulerState.Invariant`): the
configuration it was made with, a grid of standard bandwidths, if any, and downlink processes that
remember their blocks.

* `SchedulerState.Invariant.of_step`: an accepted request keeps the invariant;
* `Reachable.invariant`: it holds in every reachable state.
-/

namespace LteMac

/-- The groups of a standard bandwidth fit in a bitmap. -/
theorem Grid.rbgCount_le {grid : Grid} (h : grid.downlink ∈ standardBandwidths) :
    grid.rbgCount ≤ 32 := by
  have hall : ∀ n ∈ standardBandwidths, LteMac.rbgCount n ≤ 32 := by decide
  exact hall _ h

namespace SchedulerState

variable {Record : Type} {policy : Policy Record} {config : SchedulerConfig}
  {s s' : SchedulerState Record} {said : List Indication}

/-- What every reachable state has in common. -/
structure Invariant (config : SchedulerConfig) (s : SchedulerState Record) : Prop where
  /-- The parameters do not change. -/
  config : s.config = config
  /-- A grid has bandwidths of the standard. -/
  grid : ∀ grid, s.grid = some grid →
    grid.downlink ∈ standardBandwidths ∧ grid.uplink ∈ standardBandwidths
  /-- The downlink processes remember what they carry. -/
  sound : s.downlink.harq.Sound

namespace Invariant

theorem initial : Invariant config (.initial config : SchedulerState Record) where
  config := rfl
  grid _ h := by cases h
  sound := .empty

theorem rbgCount_le (h : Invariant config s) {grid : Grid} (hgrid : s.grid = some grid) :
    grid.rbgCount ≤ 32 := Grid.rbgCount_le (h.grid grid hgrid).1

/-- An accepted request keeps the invariant. -/
theorem of_step (h : Invariant config s) {q : Request}
    (hstep : s.step policy q = .ok (s', said)) : Invariant config s' := by
  cases effect_of_step hstep with
  | cell hgrid hdownlink huplink =>
    exact { h with grid := fun _ hg => Option.some.inj hg ▸ ⟨hdownlink, huplink⟩ }
  | added => exact { h with sound := h.sound.insert }
  | released => exact { h with sound := h.sound.erase }
  | heard => exact { h with }
  | downlink hgrid =>
    exact { h with
      sound := (DownlinkTrigger.fair_fresh policy s _ _ h.sound (h.rbgCount_le hgrid)).sound }
  | uplink => exact { h with }
  | quiet _ hmove =>
    exact ⟨hmove.config.trans h.config, fun g hg => h.grid g (hmove.grid ▸ hg),
      hmove.harq ▸ h.sound⟩

end Invariant

end SchedulerState

/-- Every reachable state satisfies the invariant. -/
theorem Reachable.invariant {Record : Type} {policy : Policy Record} {config : SchedulerConfig}
    {s : SchedulerState Record} (h : Reachable policy config s) : s.Invariant config :=
  Run.reachable_invariant .initial (fun hs hq => hs.of_step hq) h

end LteMac
