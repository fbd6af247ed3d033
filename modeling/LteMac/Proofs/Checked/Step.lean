import LteMac.Proofs.Checked.DownlinkTrigger
import LteMac.Proofs.Checked.Policy
import LteMac.Proofs.Checked.Uplink
import LteMac.Proofs.Scheduler.Lockstep
import LteMac.Proofs.Uplink.Permission

/-!
# Checked runs

A checked scheduler makes every access of a request as a checked one. Positions are stored in one
subframe and used in a later one, when UEs may have come and gone and another reuse policy may have
been installed; that no access stops the scheduler rests on what all its states have in common
(`SchedulerState.Apt`).

There are two ways for a checked request not to come to its end. It may be refused, which is an
answer like any other, and it may stop at an access, which is what must not happen. The two are kept
apart by a computation of refusals inside a computation that may stop (`Attempt`), and that a
checked request comes to the request means that the outer one never stops, while the inner one
refuses exactly what `step` refuses.

Requests that look nothing up by its place are answered by `step` itself; the others are composed of
checks, which are the same, and of the checked functions of the two directions.

* `Run.apt`: the states of a run are as the accesses need them;
* `SchedulerState.Apt.stepChecked_eq`: in such a state, a checked request comes to the request;
* `SchedulerState.respond_in_range`: so do all requests of any list, one after the other.
-/

namespace LteMac

/-- A computation that may be refused, and that stops at an access that cannot be made. -/
abbrev Attempt := ExceptT SchedulerError Checked

/-- Goes on if nothing is refused. -/
def Attempt.require {α : Type} (x : Except SchedulerError α) : Attempt α := ExceptT.mk (pure x)

namespace Attempt

variable {α β : Type}

/-- Nothing is refused. -/
theorem require_pure (a : α) : require (pure a) = pure a := rfl

/-- A refusal is one. -/
theorem require_throw (cause : SchedulerError) : require (throw cause : Except _ α) = throw cause :=
  rfl

/-- Checks in sequence are made in sequence. -/
theorem require_bind (x : Except SchedulerError α) (f : α → Except SchedulerError β) :
    require (x >>= f) = require x >>= fun a => require (f a) := by
  cases x <;> rfl

/-- A check whose value is dropped. -/
theorem require_discard (x : Except SchedulerError α) :
    require (discard x) = discard (require x) := by
  cases x <;> rfl

/-- An access that does not stop. -/
theorem lift_pure (a : α) : (liftM (pure a : Checked α) : Attempt α) = pure a := rfl

end Attempt

open Attempt (require require_pure require_throw require_bind require_discard lift_pure)

namespace UplinkQuality

/-- Stores the measurement of one block. -/
def setBlockChecked (q : UplinkQuality) (rnti : Rnti) (block : Nat) (value : Float) :
    Checked UplinkQuality := do
  let known := (q.sinr.get? rnti).getD (padded [] q.bandwidth)
  let samples := padded known (block + 1)
  Checked.checkIndex samples.length block
  return { q with sinr := q.sinr.report rnti (samples.set block value) }

/-- The samples of a UE are made long enough before one of them is set. -/
theorem setBlockChecked_eq (q : UplinkQuality) (rnti : Rnti) (block : Nat) (value : Float) :
    q.setBlockChecked rnti block value = pure (q.setBlock rnti block value) := by
  have hlt : ∀ known : List Float, block < (padded known (block + 1)).length := fun known => by
    rw [padded, List.length_append, List.length_replicate]
    omega
  rw [setBlockChecked, Checked.checkIndex_eq (hlt _), pure_bind, setBlock]

end UplinkQuality

namespace SchedulerState

variable {Record : Type} {policy : Policy Record} {s : SchedulerState Record}

/-! ## Requests -/

/-- Configures the cell. -/
def configureCellChecked (s : SchedulerState Record) (downlink uplink : Nat) :
    Attempt (Outcome Record) := do
  if s.grid.isSome then throw .cellAlreadyConfigured
  require s.requireControl
  let downlink ← require (requireBandwidth downlink)
  let uplink ← require (requireBandwidth uplink)
  let grid : Grid := ⟨downlink, uplink⟩
  let rbgs ← rbgCountChecked downlink
  let reuse ← require (s.reuseFor grid)
  let s' := { s with
    grid := some grid
    reuse
    uplink := { s.uplink with
      reserved := .empty uplink
      quality := s.uplink.quality.setBandwidth uplink } }
  return (s', [.cellConfigured grid.rbgSize rbgs])

/-- Configures a UE. -/
def configureUeChecked (policy : Policy Record) (s : SchedulerState Record) (rnti : Rnti)
    (mode : TransmissionMode) : Attempt (Outcome Record) := do
  discard (require s.requireGrid)
  require s.requireControl
  if s.ues.contains rnti then throw (.ueAlreadyConfigured rnti)
  let s' := addUe policy s rnti mode
  let harq ← s.downlink.harq.insertChecked rnti
  return ({ s' with downlink := { s'.downlink with harq } }, [.ueConfigured rnti])

/-- Releases a UE. -/
def releaseUeChecked (s : SchedulerState Record) (rnti : Rnti) : Attempt (Outcome Record) := do
  require (s.requireUe rnti)
  require s.requireControl
  let s' := s.removeUe rnti
  let harq ← s.downlink.harq.eraseChecked rnti
  return ({ s' with downlink := { s'.downlink with harq } }, [.ueReleased rnti])

/-- Takes in a control element of a UE. -/
def takeControlChecked (s : SchedulerState Record) (control : Rnti × UplinkControl) :
    Checked (SchedulerState Record) :=
  match control.2 with
  | .bufferStatus indices => do
    let bytes ← BufferStatus.totalChecked indices
    return s.modifyUplinkUe control.1 fun u => { u with buffer := some bytes }
  | .powerHeadroom _ | .identity _ => pure s

/-- Takes in control elements that UEs sent. -/
def takeControlsChecked (s : SchedulerState Record) (controls : List (Rnti × UplinkControl)) :
    Attempt (Outcome Record) := do
  require (s.requireUes (controls.map (·.1)))
  let s ← (controls.foldlM takeControlChecked s : Checked _)
  return (s, [])

/-- Attributes the samples of past data blocks to the UEs that sent them. -/
def creditSamplesChecked (s : SchedulerState Record) (map : BlockMap) (samples : List Float) :
    Checked UplinkQuality :=
  samples.zipIdx.foldlM (fun q sample =>
    match map.owner? sample.2 with
    | none => pure q
    | some rnti =>
      if rnti = 0 || !s.ues.contains rnti then pure q
      else q.setBlockChecked rnti sample.2 sample.1) s.uplink.quality

/-- Takes in uplink quality. -/
def takeSinrChecked (s : SchedulerState Record) (time : Subframe) (source : SinrSource)
    (codes : List UInt16) (rnti : Option Rnti) : Attempt (Outcome Record) := do
  discard (require s.requireGrid)
  if source ≠ s.config.sinrSource then return (s, [])
  let samples := codes.map Sinr.decode
  match source with
  | .sounding =>
    match rnti with
    | none => throw .missingSoundingUe
    | some rnti =>
      require (s.requireUe rnti)
      let quality := s.uplink.quality.replace rnti samples
      return ({ s with uplink := { s.uplink with quality } }, [])
  | .data =>
    match s.uplink.history.find? (·.1 = time) with
    | none => return (s, [])
    | some (_, map) =>
      let quality ← s.creditSamplesChecked map samples
      return ({ s with uplink := { s.uplink with
        quality
        history := s.uplink.history.eraseP (·.1 = time) } }, [])

/-- Runs a downlink trigger. -/
def downlinkTriggerChecked (policy : Policy Record)
    (allocate : AllocationContext → List Rnti → (Rnti → Option Record) → Checked Allocation)
    (s : SchedulerState Record) (feedback : List HarqFeedback) : Attempt (Outcome Record) := do
  require s.requireData
  let grid ← require s.requireGrid
  require (feedback.forM (DownlinkTrigger.requireFeedback s))
  DownlinkTrigger.decideChecked allocate policy s grid feedback

/-- Runs an uplink trigger. -/
def uplinkTriggerChecked (s : SchedulerState Record) (time : Subframe)
    (outcomes : List UplinkOutcome) : Attempt (Outcome Record) := do
  require s.requireData
  let grid ← require s.requireGrid
  require (s.requireUes (outcomes.map (·.rnti)))
  UplinkTrigger.decideChecked s grid time outcomes

/-- Answers a request. The requests that are not named look nothing up by its place. -/
def stepChecked (algorithm : Algorithm) (config : SchedulerConfig)
    (s : SchedulerState algorithm.Record) : Request → Attempt (Outcome algorithm.Record)
  | .configureCell downlink uplink => s.configureCellChecked downlink uplink
  | .configureUe rnti mode => configureUeChecked (algorithm.policy config) s rnti mode
  | .releaseUe rnti => s.releaseUeChecked rnti
  | .downlinkTrigger feedback =>
    s.downlinkTriggerChecked (algorithm.policy config) (algorithm.allocateChecked config) feedback
  | .uplinkTrigger time outcomes => s.uplinkTriggerChecked time outcomes
  | .uplinkControls controls => s.takeControlsChecked controls
  | .sinr time source codes rnti => s.takeSinrChecked time source codes rnti
  | q => require (s.step (algorithm.policy config) q)

/-- What is answered to the requests of a list, one after the other, and the state afterwards. -/
def respondChecked (algorithm : Algorithm) (config : SchedulerConfig)
    (s : SchedulerState algorithm.Record) : List Request →
      Checked (List (Request × Except SchedulerError (List Indication)) ×
        SchedulerState algorithm.Record)
  | [] => pure ([], s)
  | q :: rest => do
    match ← (s.stepChecked algorithm config q).run with
    | .error cause =>
      let (answers, t) ← respondChecked algorithm config s rest
      return ((q, .error cause) :: answers, t)
    | .ok (s', said) =>
      let (answers, t) ← respondChecked algorithm config s' rest
      return ((q, .ok said) :: answers, t)

/-! ## What the accesses rely on -/

/-- What the accesses of a request rely on. -/
structure Apt (s : SchedulerState Record) : Prop where
  /-- Every UE has a slot of its own among the entities of the downlink. -/
  separate : s.downlink.harq.Separate
  /-- The groups fit into a bitmap. -/
  groups : ∀ grid, s.grid = some grid → grid.rbgCount ≤ 32
  /-- The map of reserved blocks covers the grid. -/
  reserved : ∀ grid, s.grid = some grid → s.uplink.reserved.size = grid.uplink
  /-- The blocks that may be retransmitted have a length. -/
  stored : UplinkTable.Sound s.uplink.ues
  /-- The cursors of the uplink entities point at processes. -/
  cursors : s.config.harqEnabled = true → UplinkTable.InRange s.uplink.ues

/-- Every index of a buffer size has an entry in the table. -/
theorem takeControlChecked_eq (s : SchedulerState Record) (control : Rnti × UplinkControl) :
    s.takeControlChecked control = pure (s.takeControl control) := by
  unfold takeControlChecked takeControl
  cases control.2 with
  | bufferStatus indices =>
    dsimp only
    rw [BufferStatus.totalChecked_eq, pure_bind]
  | powerHeadroom | identity => rfl

/-- Samples are credited to blocks for which there is a place, or for which it is made. -/
theorem creditSamplesChecked_eq (s : SchedulerState Record) (map : BlockMap)
    (samples : List Float) :
    s.creditSamplesChecked map samples = pure (s.creditSamples map samples) := by
  refine Checked.foldlM_eq (fun _ => True) (fun q _ sample _ => ?_) (fun _ _ _ _ => trivial) trivial
  cases map.owner? sample.2 with
  | none => rfl
  | some rnti =>
    dsimp only
    split
    · rfl
    · exact q.setBlockChecked_eq ..

/-- A standard bandwidth has a size of its groups. -/
theorem configureCellChecked_eq (s : SchedulerState Record) (downlink uplink : Nat) :
    s.configureCellChecked downlink uplink = require (s.configureCell downlink uplink) := by
  simp only [configureCellChecked, rbgCountChecked_eq, lift_pure, pure_bind, configureCell,
    apply_ite require, require_bind, require_throw, require_pure]
  rfl

/-- A new UE gets a free slot of the arena, or a new one. -/
theorem configureUeChecked_eq (hs : s.downlink.harq.Separate) (policy : Policy Record)
    (rnti : Rnti) (mode : TransmissionMode) :
    configureUeChecked policy s rnti mode = require (s.configureUe policy rnti mode) := by
  simp only [configureUeChecked, DownlinkHarq.insertChecked_eq hs, lift_pure, pure_bind,
    configureUe, apply_ite require, require_bind, require_throw, require_discard, require_pure]
  rfl

/-- The slot of a UE that goes is there to be freed. -/
theorem releaseUeChecked_eq (hs : s.downlink.harq.Separate) (rnti : Rnti) :
    s.releaseUeChecked rnti = require (s.releaseUe rnti) := by
  simp only [releaseUeChecked, DownlinkHarq.eraseChecked_eq hs, lift_pure, pure_bind, releaseUe,
    require_bind, require_pure]
  rfl

/-- Control elements are taken in one by one. -/
theorem takeControlsChecked_eq (s : SchedulerState Record)
    (controls : List (Rnti × UplinkControl)) :
    s.takeControlsChecked controls = require (s.takeControls controls) := by
  have hloop : controls.foldlM takeControlChecked s = pure (controls.foldl takeControl s) :=
    Checked.foldlM_eq (fun _ => True) (fun s _ control _ => s.takeControlChecked_eq control)
      (fun _ _ _ _ => trivial) trivial
  simp only [takeControlsChecked, hloop, lift_pure, pure_bind, takeControls, require_bind,
    require_pure]

/-- Uplink measurements are taken in, whatever their kind and number. -/
theorem takeSinrChecked_eq (s : SchedulerState Record) (time : Subframe) (source : SinrSource)
    (codes : List UInt16) (rnti : Option Rnti) :
    s.takeSinrChecked time source codes rnti = require (s.takeSinr time source codes rnti) := by
  unfold takeSinrChecked takeSinr
  rw [require_bind, require_discard]
  refine congrArg (_ >>= ·) (funext fun _ => ?_)
  -- The checks are the same, and of all that is written only the samples of a map could be out of
  -- range.
  by_cases hsource : source ≠ s.config.sinrSource
  · rw [if_pos hsource, if_pos hsource]
    rfl
  · rw [if_neg hsource, if_neg hsource]
    cases source with
    | sounding =>
      cases rnti with
      | none => rfl
      | some rnti => exact (require_bind _ _).symm
    | data =>
      dsimp only
      cases s.uplink.history.find? (·.1 = time) with
      | none => rfl
      | some past =>
        dsimp only
        rw [creditSamplesChecked_eq]
        rfl

/-- A downlink trigger does not stop, if the checked policy proposes what the policy does. -/
theorem Apt.downlinkTriggerChecked_eq (h : s.Apt)
    {allocate : AllocationContext → List Rnti → (Rnti → Option Record) → Checked Allocation}
    (hallocate : ∀ ctx candidates records,
      allocate ctx candidates records = pure (policy.allocate ctx candidates records))
    (feedback : List HarqFeedback) :
    s.downlinkTriggerChecked policy allocate feedback =
      require (DownlinkTrigger.run policy s feedback) := by
  unfold downlinkTriggerChecked DownlinkTrigger.run
  rw [require_bind]
  refine congrArg (_ >>= ·) (funext fun _ => ?_)
  rw [require_bind]
  -- With a grid, the passes stay in range by what is known of the state.
  cases hgrid : s.requireGrid with
  | error => rfl
  | ok grid =>
    have hdecide := DownlinkTrigger.decideChecked_eq hallocate h.separate
      (h.groups grid (requireGrid_eq_ok.1 hgrid)) h.cursors feedback
    change (require _ >>= fun _ => liftM (DownlinkTrigger.decideChecked allocate policy s grid _)) =
      require (_ >>= _)
    rw [hdecide, require_bind]
    rfl

/-- An uplink trigger does not stop. -/
theorem Apt.uplinkTriggerChecked_eq (h : s.Apt) (time : Subframe)
    (outcomes : List UplinkOutcome) :
    s.uplinkTriggerChecked time outcomes = require (UplinkTrigger.run s time outcomes) := by
  unfold uplinkTriggerChecked UplinkTrigger.run
  rw [require_bind]
  refine congrArg (_ >>= ·) (funext fun _ => ?_)
  rw [require_bind]
  cases hgrid : s.requireGrid with
  | error => rfl
  | ok grid =>
    have hdecide := UplinkTrigger.decideChecked_eq h.stored h.cursors
      (h.reserved grid (requireGrid_eq_ok.1 hgrid)) time outcomes
    change (require _ >>= fun _ => liftM (UplinkTrigger.decideChecked s grid _ _)) =
      require (_ >>= _)
    rw [hdecide, require_bind]
    rfl

/-- Where the accesses find what they rely on, none of them stops. -/
theorem Apt.stepChecked_eq {algorithm : Algorithm} {s : SchedulerState algorithm.Record}
    (h : s.Apt) (config : SchedulerConfig) (q : Request) :
    s.stepChecked algorithm config q = require (s.step (algorithm.policy config) q) := by
  cases q with
  | configureCell downlink uplink => exact s.configureCellChecked_eq downlink uplink
  | configureUe rnti mode => exact configureUeChecked_eq h.separate _ rnti mode
  | releaseUe rnti => exact releaseUeChecked_eq h.separate rnti
  | downlinkTrigger feedback =>
    exact h.downlinkTriggerChecked_eq (algorithm.allocateChecked_eq config) feedback
  | uplinkTrigger time outcomes => exact h.uplinkTriggerChecked_eq time outcomes
  | uplinkControls controls => exact s.takeControlsChecked_eq controls
  | sinr time source codes rnti => exact s.takeSinrChecked_eq time source codes rnti
  | _ => rfl

end SchedulerState

/-! ## Runs -/

variable {Record : Type} {policy : Policy Record} {config : SchedulerConfig}
  {es : List (Event Record)} {s : SchedulerState Record}

/-- The states of a run are as the accesses need them. -/
theorem Run.apt (h : Run policy config es s) : s.Apt where
  separate := h.reachable.invariant.sound.separate
  groups _ hgrid := h.reachable.invariant.rbgCount_le hgrid
  reserved grid hgrid := by
    rw [h.reachable.consistent.uplink.reserved, SchedulerState.blocks, hgrid, Option.elim_some]
  stored := h.sound
  cursors henabled r u hu := by
    have htells := (h.tells (h.reachable.invariant.config ▸ henabled)).2 r
    rw [hu] at htells
    exact Timetable.Describes.current htells

namespace SchedulerState

/-- Whatever a run has led to, no access stops the scheduler at the requests that follow. -/
theorem respondChecked_eq {algorithm : Algorithm} {s : SchedulerState algorithm.Record}
    {es : List (Event algorithm.Record)} (h : Run (algorithm.policy config) config es s)
    (qs : List Request) :
    s.respondChecked algorithm config qs = pure (s.respond (algorithm.policy config) qs) := by
  induction qs generalizing s es with
  | nil => rfl
  | cons q rest ih =>
    rw [respondChecked, h.apt.stepChecked_eq]
    change (pure (s.step (algorithm.policy config) q) >>= _) = _
    rw [pure_bind]
    cases hq : s.step (algorithm.policy config) q with
    | error cause =>
      dsimp only
      rw [ih h, pure_bind, respond_cons_of_error hq]
    | ok outcome =>
      obtain ⟨s', said⟩ := outcome
      dsimp only
      rw [ih (h.step hq), pure_bind, respond_cons_of_ok hq]

/-- For every sequence of requests, with whatever they carry, every access that an algorithm makes
is in range: the checked scheduler answers them all, and as the scheduler does. A request that is
refused leaves the state as it was, and the next one is answered from there. -/
theorem respond_in_range (algorithm : Algorithm) (config : SchedulerConfig) (qs : List Request) :
    (SchedulerState.initial config).respondChecked algorithm config qs =
      .ok ((SchedulerState.initial config).respond (algorithm.policy config) qs) :=
  respondChecked_eq .start qs

end SchedulerState

end LteMac
