import LteMac.Radio.Grid
import LteMac.Reuse.Policy

/-!
# Reuse plans

A reuse plan says how the cells of a run share the band with their neighbours, before the grid of
any cell is known. `ReusePlan.check` says whether it suits a grid, and `ReusePlan.policy` is the
policy it stands for on a grid.
-/

namespace LteMac

/-- The bands of a plan. -/
inductive BandField where
  | downlink
  | uplink
  | downlinkSecondary
  | uplinkSecondary
deriving DecidableEq

/-- The key a band has in a scenario file. -/
def BandField.key : BandField → String
  | downlink => "dl_sub_band"
  | uplink => "ul_sub_band"
  | downlinkSecondary => "dl_secondary"
  | uplinkSecondary => "ul_secondary"

/-- Why a plan does not suit a grid. -/
inductive ReusePlanError where
  /-- A band reaches beyond the grid. -/
  | misfit (field : BandField) (band : Band) (plan : String) (available : Nat)
  /-- A neighbour is said to use a group that the grid does not have. -/
  | unknownGroup (cell : UInt16) (rbg available : Nat)
deriving DecidableEq

/-- What is said about a plan that does not suit a grid. -/
def ReusePlanError.message : ReusePlanError → String
  | misfit field band plan available =>
    s!"ffr.{field.key} {band.offset}+{band.width} does not fit {plan} ({available} available)"
  | unknownGroup cell rbg available =>
    s!"RNTP of cell {cell} names RBG {rbg}, cell has {available}"

/-- How the cells of a run share the band with their neighbours. -/
inductive ReusePlan where
  /-- No restriction. -/
  | full
  /-- One band in each direction. -/
  | hard (downlink uplink : Band)
  /-- The edge band in each direction. -/
  | soft (downlinkEdge uplinkEdge : Band) (threshold : Nat)
  /-- The primary and the secondary band in each direction. -/
  | enhanced (downlinkPrimary downlinkSecondary uplinkPrimary uplinkSecondary : Band)
      (threshold : Nat)
  /-- Each announcement lists the groups a neighbour uses at high power. -/
  | distributed (threshold : Nat) (announcements : List (UInt16 × List Nat))
deriving DecidableEq

namespace ReusePlan

/-- The name of the rule a plan follows. -/
def name : ReusePlan → String
  | full => "none"
  | hard .. => "hard"
  | soft .. => "soft"
  | enhanced .. => "enhanced"
  | distributed .. => "distributed"

/-- The bands of a plan, with the size of the grid each has to fit. -/
def bands (rbgs blocks : Nat) : ReusePlan → List (BandField × Band × Nat)
  | full | distributed .. => []
  | hard downlink uplink | soft downlink uplink _ =>
    [(.downlink, downlink, rbgs), (.uplink, uplink, blocks)]
  | enhanced downlinkPrimary downlinkSecondary uplinkPrimary uplinkSecondary _ =>
    [(.downlink, downlinkPrimary, rbgs), (.downlinkSecondary, downlinkSecondary, rbgs),
      (.uplink, uplinkPrimary, blocks), (.uplinkSecondary, uplinkSecondary, blocks)]

/-- What neighbours announce. -/
def announcements : ReusePlan → List (UInt16 × List Nat)
  | distributed _ announcements => announcements
  | _ => []

/-- What is wrong with a plan on a grid, the first thing if there are several. -/
def fault? (plan : ReusePlan) (rbgs blocks : Nat) : Option ReusePlanError :=
  (plan.announcements.findSome? fun a =>
    (a.2.find? (rbgs ≤ ·)).map fun rbg => .unknownGroup a.1 rbg rbgs) <|>
  (plan.bands rbgs blocks).findSome? fun (field, band, available) =>
    if band.fits available then none else some (.misfit field band plan.name available)

/-- Refuses a plan that does not suit a grid. -/
def check (plan : ReusePlan) (rbgs blocks : Nat) : Except ReusePlanError Unit :=
  match plan.fault? rbgs blocks with
  | some fault => .error fault
  | none => .ok ()

/-- The policy of a plan on a grid. Of two announcements of one cell the later holds. -/
def policy (plan : ReusePlan) (rbgs blocks : Nat) : ReusePolicy :=
  match plan with
  | full => .full rbgs blocks
  | hard downlink uplink => .hard rbgs blocks downlink uplink
  | soft downlink uplink threshold => .soft rbgs blocks downlink uplink threshold
  | enhanced dp ds up us threshold => .enhanced rbgs blocks dp ds up us threshold
  | distributed threshold announcements =>
    announcements.foldl
      (fun p a => (p.hear? a.1 (flags rbgs fun i => a.2.contains i)).getD p)
      (.distributed rbgs blocks threshold)

end ReusePlan

end LteMac
