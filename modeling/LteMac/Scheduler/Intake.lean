import LteMac.Radio.BufferStatus
import LteMac.Scheduler.Control

/-!
# Taking in reports

What UEs and upper layers report between two subframes. Reports only change what the cell knows;
the decisions are made by the triggers.
-/

namespace LteMac.SchedulerState

variable {Record : Type}

/-- Refuses a list that names a UE which is not configured. -/
def requireUes (s : SchedulerState Record) (rntis : List Rnti) : Except SchedulerError Unit :=
  rntis.forM s.requireUe

/-- Changes what the downlink keeps of a UE. -/
def modifyDownlinkUe (s : SchedulerState Record) (rnti : Rnti)
    (f : DownlinkUe Record → DownlinkUe Record) : SchedulerState Record :=
  { s with downlink := { s.downlink with ues := s.downlink.ues.modify rnti f } }

/-- Changes what the uplink keeps of a UE. -/
def modifyUplinkUe (s : SchedulerState Record) (rnti : Rnti) (f : UplinkUe → UplinkUe) :
    SchedulerState Record :=
  { s with uplink := { s.uplink with ues := s.uplink.ues.modify rnti f } }

/-- Notes what waits for a channel. The common channel needs no bearer. -/
def setQueue (s : SchedulerState Record) (rnti : Rnti) (lcid : Lcid) (queue : RlcQueue) :
    Except SchedulerError (Outcome Record) := do
  s.requireUe rnti
  if lcid ≠ 0 && !s.hasBearer rnti lcid then throw (.unknownChannel rnti lcid)
  return (s.modifyDownlinkUe rnti fun u => { u with queues := u.queues.insert lcid queue }, [])

/-- Queues paging messages. -/
def queuePaging (s : SchedulerState Record) (messages : List PagingMessage) :
    Except SchedulerError (Outcome Record) := do
  discard s.requireGrid
  return ({ s with downlink := { s.downlink with paging := s.downlink.paging ++ messages } }, [])

/-- Adds control elements to those waiting for a UE. -/
def addElements (s : SchedulerState Record) (rnti : Rnti) (elements : ControlElements) :
    Except SchedulerError (Outcome Record) := do
  s.requireUe rnti
  let add (u : DownlinkUe Record) : DownlinkUe Record :=
    { u with elements := some ((u.elements.getD .empty).union elements) }
  return (s.modifyDownlinkUe rnti add, [])

/-- Notes preambles that were heard. -/
def hearPreambles (s : SchedulerState Record) (preambles : List Preamble) :
    Except SchedulerError (Outcome Record) := do
  discard s.requireGrid
  return ({ s with preambles := s.preambles ++ preambles }, [])

/-- Stores a downlink quality report in its table. -/
def storeQuality (q : DownlinkQuality) (report : CqiReport) : DownlinkQuality :=
  match report.kind with
  | .wideband => report.wideband.head?.elim q (q.reportWideband report.rnti)
  | .subband => q.reportSubband report.rnti report.subband

/-- Adapts the mode of a UE to a reported rank, which is indicated if somebody listens. -/
def adaptMode (outcome : Outcome Record) (report : CqiReport) : Outcome Record :=
  let (s, said) := outcome
  match s.ues[report.rnti]? with
  | none => outcome
  | some u =>
    let mode := u.mode.adapt report.rank
    if mode = u.mode then outcome
    else
      (s.setMode report.rnti mode,
        if s.controlConnected then said ++ [.modeChanged report.rnti mode] else said)

/-- Takes in downlink quality reports. -/
def takeQuality (s : SchedulerState Record) (reports : List CqiReport) :
    Except SchedulerError (Outcome Record) := do
  discard s.requireGrid
  s.requireUes (reports.map (·.rnti))
  let s := { s with
    downlink := { s.downlink with
      quality := reports.foldl storeQuality s.downlink.quality }
    reuse := s.reuse.learnAll reports }
  return if s.config.rankAdaptation then reports.foldl adaptMode (s, []) else (s, [])

/-- Takes in noise and interference, which are not used. -/
def takeNoise (s : SchedulerState Record) : Except SchedulerError (Outcome Record) := do
  discard s.requireGrid
  return (s, [])

/-- Notes who asks to send. -/
def takeRequests (s : SchedulerState Record) (rntis : List Rnti) :
    Except SchedulerError (Outcome Record) := do
  s.requireUes rntis
  let note (s : SchedulerState Record) (rnti : Rnti) : SchedulerState Record :=
    s.modifyUplinkUe rnti fun u => { u with requested := true }
  return (rntis.foldl note s, [])

/-- Takes in a control element of a UE: only what it says about its buffer is used. -/
def takeControl (s : SchedulerState Record) (control : Rnti × UplinkControl) :
    SchedulerState Record :=
  match control.2 with
  | .bufferStatus indices =>
    s.modifyUplinkUe control.1 fun u => { u with buffer := some (BufferStatus.total indices) }
  | .powerHeadroom _ | .identity _ => s

/-- Takes in control elements that UEs sent. -/
def takeControls (s : SchedulerState Record) (controls : List (Rnti × UplinkControl)) :
    Except SchedulerError (Outcome Record) := do
  s.requireUes (controls.map (·.1))
  return (controls.foldl takeControl s, [])

/-- Attributes the samples of past data blocks to the UEs that sent them. -/
def creditSamples (s : SchedulerState Record) (map : BlockMap) (samples : List Float) :
    UplinkQuality :=
  let store (q : UplinkQuality) (sample : Float × Nat) : UplinkQuality :=
    match map.owner? sample.2 with
    | none => q
    | some rnti =>
      if rnti = 0 || !s.ues.contains rnti then q else q.setBlock rnti sample.2 sample.1
  samples.zipIdx.foldl store s.uplink.quality

/-- Takes in uplink quality: a sounding report is about one UE, a data report about all that were
granted blocks in the subframe it names, whose block map it uses up. -/
def takeSinr (s : SchedulerState Record) (time : Subframe) (source : SinrSource)
    (codes : List UInt16) (rnti : Option Rnti) : Except SchedulerError (Outcome Record) := do
  discard s.requireGrid
  if source ≠ s.config.sinrSource then return (s, [])
  let samples := codes.map Sinr.decode
  match source with
  | .sounding =>
    match rnti with
    | none => throw .missingSoundingUe
    | some rnti =>
      s.requireUe rnti
      let quality := s.uplink.quality.replace rnti samples
      return ({ s with uplink := { s.uplink with quality } }, [])
  | .data =>
    match s.uplink.history.find? (·.1 = time) with
    | none => return (s, [])
    | some (_, map) =>
      return ({ s with uplink := { s.uplink with
        quality := s.creditSamples map samples
        history := s.uplink.history.eraseP (·.1 = time) } }, [])

end LteMac.SchedulerState
