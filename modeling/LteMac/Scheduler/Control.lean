import LteMac.Scheduler.Request

/-!
# The control plane

Setting up a cell, its UEs and their bearers, and taking them down again. Every request first
checks what it relies on and then changes the state in one go, so a refusal leaves no trace.
Each request that succeeds is confirmed once.
-/

namespace LteMac.SchedulerState

variable {Record : Type}

/-- Refuses a reuse policy that was made for another grid. -/
def requireFit (policy : ReusePolicy) (grid : Grid) : Except SchedulerError Unit :=
  let downlink := policy.downlinkFlags.length
  let uplink := policy.uplinkFlags.length
  if downlink ≠ grid.rbgCount then
    .error (.reuseMismatch .downlink grid.rbgCount downlink)
  else if uplink ≠ grid.uplink then .error (.reuseMismatch .uplink grid.uplink uplink)
  else .ok ()

/-- Installs a reuse policy. -/
def installReuse (s : SchedulerState Record) (policy : ReusePolicy) :
    Except SchedulerError (Outcome Record) := do
  match s.grid with
  | some grid => requireFit policy grid
  | none => pure ()
  return ({ s with reuse := policy, reuseInstalled := true }, [])

/-- A standard bandwidth, or a refusal. -/
def requireBandwidth (value : Nat) : Except SchedulerError Nat :=
  (checkBandwidth value).mapError .carrier

/-- The reuse policy of a new cell: the installed one, if it fits, or else none at all. -/
def reuseFor (s : SchedulerState Record) (grid : Grid) : Except SchedulerError ReusePolicy := do
  if s.reuseInstalled then
    requireFit s.reuse grid
    return s.reuse
  else return .full grid.rbgCount grid.uplink

/-- Configures the cell, which can be done once. -/
def configureCell (s : SchedulerState Record) (downlink uplink : Nat) :
    Except SchedulerError (Outcome Record) := do
  if s.grid.isSome then throw .cellAlreadyConfigured
  s.requireControl
  let downlink ← requireBandwidth downlink
  let uplink ← requireBandwidth uplink
  let grid : Grid := ⟨downlink, uplink⟩
  let reuse ← s.reuseFor grid
  let s' := { s with
    grid := some grid
    reuse
    uplink := { s.uplink with
      reserved := .empty uplink
      quality := s.uplink.quality.setBandwidth uplink } }
  return (s', [.cellConfigured grid.rbgSize grid.rbgCount])

/-- A new UE with nothing to send or to receive. -/
def addUe (policy : Policy Record) (s : SchedulerState Record) (rnti : Rnti)
    (mode : TransmissionMode) : SchedulerState Record :=
  let start := s.downlink.tti
  { s with
    ues := s.ues.insert rnti ⟨mode, ∅⟩
    downlink := { s.downlink with
      ues := s.downlink.ues.insert rnti (.idle (policy.fresh start))
      harq := s.downlink.harq.insert rnti }
    uplink := { s.uplink with ues := s.uplink.ues.insert rnti (.idle start) } }

/-- Configures a UE. -/
def configureUe (policy : Policy Record) (s : SchedulerState Record) (rnti : Rnti)
    (mode : TransmissionMode) : Except SchedulerError (Outcome Record) := do
  discard s.requireGrid
  s.requireControl
  if s.ues.contains rnti then throw (.ueAlreadyConfigured rnti)
  return (addUe policy s rnti mode, [.ueConfigured rnti])

/-- Changes the mode of a UE. -/
def setMode (s : SchedulerState Record) (rnti : Rnti) (mode : TransmissionMode) :
    SchedulerState Record :=
  { s with ues := s.ues.modify rnti fun u => { u with mode } }

/-- Reconfigures a UE. -/
def reconfigureUe (s : SchedulerState Record) (rnti : Rnti) (mode : TransmissionMode) :
    Except SchedulerError (Outcome Record) := do
  discard s.requireGrid
  s.requireControl
  s.requireUe rnti
  return (s.setMode rnti mode, [.ueConfigured rnti])

/-- The bearers of a UE, ascending. -/
def bearers (s : SchedulerState Record) (rnti : Rnti) : List Bearer :=
  s.ues[rnti]?.elim [] (·.bearers.values)

/-- Tells the policy which bearers a UE has. -/
def refreshBearers (policy : Policy Record) (s : SchedulerState Record) (rnti : Rnti) :
    SchedulerState Record :=
  let update (u : DownlinkUe Record) : DownlinkUe Record :=
    { u with record := policy.setBearers (s.bearers rnti) u.record }
  { s with downlink := { s.downlink with ues := s.downlink.ues.modify rnti update } }

/-- The bearers of a request that are to be set up: the common channel is always there. -/
def dedicated (bearers : List Bearer) : List Bearer := bearers.filter (·.lcid ≠ 0)

/-- Adds bearers to a UE, each in place of one on the same channel. -/
def addBearers (s : SchedulerState Record) (rnti : Rnti) (bearers : List Bearer) :
    SchedulerState Record :=
  let add (u : Ue) : Ue :=
    { u with bearers := bearers.foldl (fun t b => t.insert b.lcid b) u.bearers }
  { s with ues := s.ues.modify rnti add }

/-- Configures bearers of a UE. -/
def configureBearers (policy : Policy Record) (s : SchedulerState Record) (rnti : Rnti)
    (bearers : List Bearer) : Except SchedulerError (Outcome Record) := do
  s.requireUe rnti
  s.requireControl
  let added := dedicated bearers
  return (refreshBearers policy (s.addBearers rnti added) rnti,
    [.bearersConfigured rnti (added.map (·.lcid))])

/-- Changing bearers is not supported. -/
def reconfigureBearers (s : SchedulerState Record) (rnti : Rnti) :
    Except SchedulerError (Outcome Record) := do
  s.requireUe rnti
  s.requireControl
  throw .bearerReconfiguration

/-- Whether a channel is configured for a UE. -/
def hasBearer (s : SchedulerState Record) (rnti : Rnti) (lcid : Lcid) : Bool :=
  s.ues[rnti]?.any (·.bearers.contains lcid)

/-- Takes channels and what waits for them away from a UE. -/
def dropBearers (s : SchedulerState Record) (rnti : Rnti) (lcids : List Lcid) :
    SchedulerState Record :=
  let drop (u : Ue) : Ue := { u with bearers := lcids.foldl (·.erase ·) u.bearers }
  let dropQueues (u : DownlinkUe Record) : DownlinkUe Record :=
    { u with queues := lcids.foldl (·.erase ·) u.queues }
  { s with
    ues := s.ues.modify rnti drop
    downlink := { s.downlink with ues := s.downlink.ues.modify rnti dropQueues } }

/-- Releases bearers of a UE; all of them have to be configured. -/
def releaseBearers (policy : Policy Record) (s : SchedulerState Record) (rnti : Rnti)
    (lcids : List Lcid) : Except SchedulerError (Outcome Record) := do
  s.requireUe rnti
  s.requireControl
  match lcids.find? (!s.hasBearer rnti ·) with
  | some lcid => throw (.unknownChannel rnti lcid)
  | none =>
    return (refreshBearers policy (s.dropBearers rnti lcids) rnti, [.bearersReleased rnti lcids])

/-- A cursor that does not point at a released UE. -/
def resetCursor (cursor rnti : Rnti) : Rnti := if cursor = rnti then 0 else cursor

/-- Removes every trace of a UE. -/
def removeUe (s : SchedulerState Record) (rnti : Rnti) : SchedulerState Record :=
  { s with
    reuse := s.reuse.forget rnti
    ues := s.ues.erase rnti
    preambles := s.preambles.filter (·.rnti ≠ rnti)
    downlink := { s.downlink with
      ues := s.downlink.ues.erase rnti
      quality := s.downlink.quality.erase rnti
      harq := s.downlink.harq.erase rnti
      feedback := s.downlink.feedback.filter (·.rnti ≠ rnti)
      cursor := resetCursor s.downlink.cursor rnti }
    uplink :=
      { ues := s.uplink.ues.erase rnti
        quality := s.uplink.quality.erase rnti
        reserved := s.uplink.reserved.release rnti
        history := s.uplink.history.map fun h => (h.1, h.2.release rnti)
        cursor := resetCursor s.uplink.cursor rnti } }

/-- Releases a UE. -/
def releaseUe (s : SchedulerState Record) (rnti : Rnti) :
    Except SchedulerError (Outcome Record) := do
  s.requireUe rnti
  s.requireControl
  return (s.removeUe rnti, [.ueReleased rnti])

end LteMac.SchedulerState
