import LteMac.Proofs.Downlink.Resending
import LteMac.Proofs.Downlink.Spectrum
import LteMac.Proofs.Radio.Columns
import LteMac.Proofs.Scheduler.Consistency
import LteMac.Proofs.Uplink.Permission

/-!
# One table for each kind of entry

A scheduler groups what it keeps by UE: the mode and the bearers of a UE are one record, what waits
for it in the downlink is a second one, and what the uplink knows of it a third. A record comes and
goes as a whole, so a UE cannot be forgotten by halves. Nothing of what is proved about the tables
rests on that. The same scheduler can be run on nine tables that know nothing of each other
(`FlatTables`): modes, control elements, averages and the like by UE, bearers and queues by flow,
and every request writes to each of the tables that it is about, one by one. To configure a UE then
writes to four tables and relies on the other ones having nothing of it, and to release it takes
nine removals, none of which may be missing.

The tables hold the same (`FlatTables.Holds`), whatever the requests are. Each of them is a column
of one of the three records, or has the rows of one spread out (`LteMac.Proofs.Radio.Columns`), and
for every request there is a lemma that says which columns it writes; the other ones are carried
over. What a trigger writes follows from what it decided: which blocks are new, what they carry,
and which outcomes were reported. So the tables can be computed from the requests and the answers to
them alone (`FlatTables.after`), without any state of the scheduler.

* `FlatTables.Holds.of_step`: a request that is accepted keeps the tables in step. The case of a new
  UE is the one that needs the records to be consistent beforehand: whatever is left of a UE in a
  table would belong to the next one of its name;
* `Run.holds_after`: after any run the tables hold what the scheduler keeps;
* `Run.closed_after`: whoever has an entry in one of them has a mode, and a queue has its bearer;
* `Run.lacks_after_release`: of a released UE none of them has a trace;
* `FlatTables.Holds.sizes`: they are as large as the scheduler says.

The processes of the downlink and the quality reports are kept in tables of their own to begin with;
how these are laid out is the subject of `LteMac.Proofs.Harq.Refinement` and
`LteMac.Proofs.Quality.Timers`.
-/

namespace LteMac

open SchedulerState (dedicated)

/-- What a cell keeps of its UEs, each kind in a table of its own. -/
structure FlatTables (Record : Type) where
  /-- Downlink triggers so far. -/
  tti : Nat
  /-- The transmission mode of each UE. -/
  modes : Table Rnti TransmissionMode
  /-- The bearers, by flow. -/
  bearers : Table FlowId Bearer
  /-- What waits, by flow. -/
  queues : Table FlowId RlcQueue
  /-- Control elements to send. -/
  elements : Table Rnti ControlElements
  /-- What the policy ranks the UEs by. -/
  records : Table Rnti Record
  /-- The averages of the uplink. -/
  averages : Table Rnti Throughput
  /-- The uplink processes. -/
  entities : Table Rnti UplinkEntity
  /-- Bytes that UEs are taken to hold. -/
  buffers : Table Rnti Nat
  /-- Who asked to send. -/
  requests : Table Rnti Unit

/-- A process after the outcome of its UE's block was heard. -/
def UplinkEntity.hear (e : UplinkEntity) : UplinkReception → UplinkEntity
  | .ok => e.acknowledge
  | .notOk => e.retry.2
  | .notValid => e

/-- The queues are drained share by share, as the parts of the block list them. -/
theorem NewData.drainAll_eq_foldl (queues : Table Lcid RlcQueue) (channels : List Lcid)
    (tbs : List Nat) :
    drainAll queues channels tbs = (share channels tbs).flatten.foldl
      (fun qs pdu => qs.modify pdu.lcid (RlcQueue.drain pdu.lcid · pdu.size)) queues := by
  rw [drainAll, share, List.foldl_flatten, List.foldl_map]
  -- A channel is drained of its shares at once, or of one after the other.
  refine congrArg (List.foldl · queues channels) (funext₂ fun qs lcid => ?_)
  rw [List.foldl_map, Table.foldl_modify]
  simp only [List.foldl_map]

/-- The blocks of a trigger that are new are those of the last stage. -/
theorem DownlinkTrigger.filter_isNew_data {Record : Type} (policy : Policy Record)
    {s : SchedulerState Record} {grid : Grid} (feedback : List HarqFeedback)
    (hsound : s.downlink.harq.Sound) (hgrid : grid.rbgCount ≤ 32) :
    (data policy s grid feedback).filter (·.isNew) = (fresh policy s grid feedback).sent := by
  have hagain : (retries s grid feedback).sent.filter (·.isNew) = [] :=
    List.filter_eq_nil_iff.2 fun b hb => by simp [(flight_of_retry feedback hsound hgrid hb).1]
  rw [data, List.filter_append, hagain, List.nil_append, List.filter_eq_self]
  exact fun b hb => ((fair_fresh policy s grid feedback hsound hgrid).first b hb).isNew

/-- The grants of a trigger that are new are those of the last stage. -/
theorem UplinkTrigger.filter_isNew_grants {Record : Type} (s : SchedulerState Record) (grid : Grid)
    (outcomes : List UplinkOutcome) :
    (decision s grid outcomes).grants.filter (·.ndi = 1) = (fresh s grid outcomes).sent := by
  have hagain : (retries s grid outcomes).sent.filter (·.ndi = 1) = [] :=
    List.filter_eq_nil_iff.2 fun g hg => by simp [(ndi_retries s grid outcomes g hg).1]
  rw [decision, List.filter_append, hagain, List.nil_append, List.filter_eq_self]
  exact fun g hg => decide_eq_true (permits_fresh s grid outcomes g hg).1

/-- What is heard of a block changes the processes of its UE, whether it is sent again or not. -/
theorem UplinkRetry.Round.ues_handle (round : Round) (o : UplinkOutcome) :
    (round.handle o).ues =
      round.ues.modify o.rnti fun u => { u with harq := u.harq.hear o.reception } := by
  rcases hu : round.ues[o.rnti]? with _ | u
  · rw [handle, hu, Table.modify_eq_self fun u hu' => by cases hu.symm.trans hu']
  · rcases o with ⟨r, ok | notOk | notValid⟩
    · rw [handle, hu, Table.modify_eq_insert hu]
      rfl
    · -- Whether the block is sent again is decided after its process has changed.
      rw [handle, hu, Table.modify_eq_insert hu]
      dsimp only
      split
      · rfl
      · rfl
      · rw [send]
        split
        · rfl
        · rfl
    · rw [handle, hu]
      exact (Table.modify_eq_self fun _ _ => rfl).symm

/-- The stage of new blocks is a pass over some candidates. -/
theorem UplinkTrigger.fresh_eq {Record : Type} (s : SchedulerState Record) (grid : Grid)
    (outcomes : List UplinkOutcome) :
    ∃ (setting : UplinkNew.Setting) (start : UplinkNew.Round) (cs : List Rnti),
      setting.harqEnabled = s.config.harqEnabled ∧ start.ues = (retries s grid outcomes).ues ∧
      start.sent = [] ∧ fresh s grid outcomes = setting.serveAll start cs := by
  rw [fresh, sendNew]
  split
  · exact ⟨⟨_, s.reuse, 0⟩, _, [], rfl, rfl, rfl, (if_pos rfl).symm⟩
  · exact ⟨_, _, _, rfl, rfl, rfl, rfl⟩

namespace FlatTables

variable {Record : Type}

/-- No UE has been configured yet. -/
def empty : FlatTables Record := ⟨0, ∅, ∅, ∅, ∅, ∅, ∅, ∅, ∅, ∅⟩

variable (policy : Policy Record) (config : SchedulerConfig) (t : FlatTables Record)

/-! ## The control plane

Each request of the control plane as it is written to the tables. Where a table is by UE and
channel, the entries of a UE are found by its name.
-/

/-- A new UE has a mode, a record, an average and processes; of the rest it has nothing. -/
def addUe (r : Rnti) (mode : TransmissionMode) : FlatTables Record :=
  { t with
    modes := t.modes.insert r mode
    records := t.records.insert r (policy.fresh t.tti)
    averages := t.averages.insert r (.fresh t.tti)
    entities := t.entities.insert r .fresh }

/-- A UE changes its mode. -/
def setMode (r : Rnti) (mode : TransmissionMode) : FlatTables Record :=
  { t with modes := t.modes.modify r fun _ => mode }

/-- The bearers of a UE, ascending. -/
def bearersOf (r : Rnti) : List Bearer := (t.bearers.filter fun flow _ => flow.rnti = r).values

/-- What waits for a UE, ascending by channel. -/
def queuesOf (r : Rnti) : List RlcQueue := (t.queues.filter fun flow _ => flow.rnti = r).values

/-- Whether anything waits for a UE. -/
def hasData (r : Rnti) : Bool := t.elements[r]?.any (!·.isEmpty) || (t.queuesOf r).any (·.pending)

/-- Tells the policy which bearers a UE has. -/
def refreshBearers (r : Rnti) : FlatTables Record :=
  { t with records := t.records.modify r (policy.setBearers (t.bearersOf r)) }

/-- Gives a UE bearers, in place of those that it has on the same channels. -/
def addBearers (r : Rnti) (bearers : List Bearer) : FlatTables Record :=
  { t with bearers := bearers.foldl (fun bs b => bs.insert ⟨r, b.lcid⟩ b) t.bearers }

/-- Takes flows away, and what waits for them. -/
def dropBearers (r : Rnti) (lcids : List Lcid) : FlatTables Record :=
  { t with
    bearers := lcids.foldl (fun bs lcid => bs.erase ⟨r, lcid⟩) t.bearers
    queues := lcids.foldl (fun qs lcid => qs.erase ⟨r, lcid⟩) t.queues }

/-- Takes a UE out of every table. -/
def removeUe (r : Rnti) : FlatTables Record where
  tti := t.tti
  modes := t.modes.erase r
  bearers := t.bearers.filter fun flow _ => flow.rnti ≠ r
  queues := t.queues.filter fun flow _ => flow.rnti ≠ r
  elements := t.elements.erase r
  records := t.records.erase r
  averages := t.averages.erase r
  entities := t.entities.erase r
  buffers := t.buffers.erase r
  requests := t.requests.erase r

/-! ## Reports

What is told of a UE changes one entry of one table. The entry may be missing although the UE is
configured, as nothing has been told of it yet.
-/

/-- What waits for a flow. -/
def setQueue (r : Rnti) (lcid : Lcid) (queue : RlcQueue) : FlatTables Record :=
  { t with queues := t.queues.insert ⟨r, lcid⟩ queue }

/-- Control elements wait together with those that did already. -/
def addElements (r : Rnti) (elements : ControlElements) : FlatTables Record :=
  { t with elements := t.elements.alter r fun old => some ((old.getD .empty).union elements) }

/-- A report may change the mode of its UE. -/
def adaptMode (report : CqiReport) : FlatTables Record :=
  { t with modes := t.modes.modify report.rnti (·.adapt report.rank) }

/-- A UE asks to send. -/
def noteRequest (r : Rnti) : FlatTables Record := { t with requests := t.requests.insert r () }

/-- A UE says how much it holds. -/
def takeControl (control : Rnti × UplinkControl) : FlatTables Record :=
  match control.2 with
  | .bufferStatus indices =>
    { t with buffers := t.buffers.insert control.1 (BufferStatus.total indices) }
  | .powerHeadroom _ | .identity _ => t

/-! ## Triggers

A trigger is written down from its decision: what was sent tells whose queues are drained and whose
processes are stored. The tables are not asked what to decide.
-/

/-- The answer to a random access is the present block of its UE, if the UE is configured. -/
def storeAnswer (g : AccessGrant) : FlatTables Record :=
  { t with entities := t.entities.modify g.rnti (·.store (Access.uplinkGrant g)) }

/-- A block of new data takes the control elements of its UE along, and what its parts carry. -/
def sendBlock (b : DataGrant) : FlatTables Record :=
  { t with
    elements := t.elements.erase b.rnti
    queues := b.pdus.flatten.foldl
      (fun qs pdu => qs.modify ⟨b.rnti, pdu.lcid⟩ (RlcQueue.drain pdu.lcid · pdu.size)) t.queues }

/-- The records take in a subframe with the given new blocks. -/
def recordAll (sent : List DataGrant) : FlatTables Record :=
  { t with
    tti := t.tti + 1
    records := t.records.map fun r record =>
      policy.record (DownlinkTrigger.bytesOf sent r) config.timeWindow record }

/-- What the decision for a downlink subframe writes. -/
def downlink (d : DownlinkDecision) : FlatTables Record :=
  let answered := if config.harqEnabled then d.access.foldl storeAnswer t else t
  let new := d.data.filter (·.isNew)
  (new.foldl sendBlock answered).recordAll policy config new

/-- Everybody who asked to send is taken to hold a little, unless it said how much it holds. -/
def takeRequests : FlatTables Record :=
  let note (old : Option Nat) : Option Nat :=
    some (if old.getD 0 = 0 then config.requestBytes else old.getD 0)
  { t with
    buffers := t.requests.keys.foldl (fun bs r => bs.alter r note) t.buffers
    requests := ∅ }

/-- The outcome of a block changes the processes of its UE. -/
def hear (o : UplinkOutcome) : FlatTables Record :=
  { t with entities := t.entities.modify o.rnti (·.hear o.reception) }

/-- A new grant is the present block of its UE, which then holds less. -/
def grant (g : UplinkGrant) : FlatTables Record :=
  { t with
    buffers := t.buffers.modify g.rnti (· - (g.tbs - UplinkNew.overhead))
    entities := if config.harqEnabled then t.entities.modify g.rnti (·.store g) else t.entities }

/-- The end of an uplink subframe with the given new grants. -/
def close (sent : List UplinkGrant) : FlatTables Record :=
  { t with
    averages := t.averages.map fun r average =>
      average.record (UplinkTrigger.bytesOf sent r) config.timeWindow
    entities := if config.harqEnabled then t.entities.map fun _ e => e.advance else t.entities }

/-- What the decision for an uplink subframe writes. -/
def uplink (outcomes : List UplinkOutcome) (d : UplinkDecision) : FlatTables Record :=
  let requested := t.takeRequests config
  let heard := if config.harqEnabled then outcomes.foldl hear requested else requested
  let new := d.grants.filter (·.ndi = 1)
  (new.foldl (grant config) heard).close config new

/-! ## Requests

All requests together, as the operations of one machine over the tables.
-/

/-- What is written on account of something that was said in answer to a request. -/
def follow (q : Request) (t : FlatTables Record) (said : Indication) : FlatTables Record :=
  match q, said with
  | .downlinkTrigger _, .downlink d => t.downlink policy config d
  | .uplinkTrigger _ outcomes, .uplink d => t.uplink config outcomes d
  | _, _ => t

/-- What a request writes that was accepted with the given answer. -/
def apply (q : Request) (said : List Indication) : FlatTables Record :=
  match q with
  | .configureUe r mode => t.addUe policy r mode
  | .reconfigureUe r mode => t.setMode r mode
  | .configureBearers r bearers => (t.addBearers r (dedicated bearers)).refreshBearers policy r
  | .releaseBearers r lcids => (t.dropBearers r lcids).refreshBearers policy r
  | .releaseUe r => t.removeUe r
  | .queue r lcid queue => t.setQueue r lcid queue
  | .controlElements r elements => t.addElements r elements
  | .quality reports => if config.rankAdaptation then reports.foldl adaptMode t else t
  | .schedulingRequests rntis => rntis.foldl noteRequest t
  | .uplinkControls controls => controls.foldl takeControl t
  | .downlinkTrigger _ | .uplinkTrigger .. => said.foldl (follow policy config q) t
  | .connect .. | .installReuse _ | .configureCell .. | .reconfigureBearers _ | .paging _
  | .randomAccess _ | .noise | .sinr .. => t

/-- The tables after some requests, each with what was said in answer to it. -/
def after (transcript : List (Request × List Indication)) : FlatTables Record :=
  transcript.foldl (fun t entry => t.apply policy config entry.1 entry.2) empty

/-! ## What the tables hold

A table holds one place of the records of all UEs. Where the place may be empty, so may the entry
be.
-/

variable {policy config t}

/-- The tables hold what is kept of the UEs, of those that are set up and in either direction. -/
structure Agree (t : FlatTables Record) (tti : Nat) (ues : Table Rnti Ue)
    (downlink : Table Rnti (DownlinkUe Record)) (uplink : Table Rnti UplinkUe) : Prop where
  tti : t.tti = tti
  modes : Table.Column (some ·.mode) ues t.modes
  bearers : Table.Spreads (·.bearers) ues t.bearers
  queues : Table.Spreads (·.queues) downlink t.queues
  elements : Table.Column (·.elements) downlink t.elements
  records : Table.Column (some ·.record) downlink t.records
  averages : Table.Column (some ·.throughput) uplink t.averages
  entities : Table.Column (some ·.harq) uplink t.entities
  buffers : Table.Column (·.buffer) uplink t.buffers
  requests : Table.Column (fun u => if u.requested then some () else none) uplink t.requests

/-- The tables hold what a scheduler keeps of its UEs. -/
abbrev Holds (t : FlatTables Record) (s : SchedulerState Record) : Prop :=
  t.Agree s.downlink.tti s.ues s.downlink.ues s.uplink.ues

variable {s s' : SchedulerState Record} {tti : Nat} {ues : Table Rnti Ue}
  {down : Table Rnti (DownlinkUe Record)} {up : Table Rnti UplinkUe} {r : Rnti}

/-- At the start there is nothing to hold. -/
theorem holds_empty : (empty : FlatTables Record).Holds (.initial config) where
  tti := rfl
  modes := .empty
  bearers := .empty
  queues := .empty
  elements := .empty
  records := .empty
  averages := .empty
  entities := .empty
  buffers := .empty
  requests := .empty

namespace Agree

/-! ## Reading

What is read from the tables is what is read from the records.
-/

/-- The bearers of a UE are those of its record. -/
theorem bearersOf (h : t.Agree tti ues down up) (r : Rnti) :
    t.bearersOf r = ues[r]?.elim [] (·.bearers.values) :=
  h.bearers.values_filter r

/-- What waits for a UE is what its record says. -/
theorem queuesOf (h : t.Agree tti ues down up) (r : Rnti) :
    t.queuesOf r = down[r]?.elim [] (·.queues.values) :=
  h.queues.values_filter r

/-- Something waits for a UE if its control elements or its queues say so. -/
theorem hasData (h : t.Agree tti ues down up) (r : Rnti) :
    t.hasData r = down[r]?.any (·.hasData) := by
  rw [FlatTables.hasData, h.queuesOf, h.elements r]
  rcases down[r]? with _ | u
  · rfl
  · rfl

end Agree

/-! ## The control plane

The operations of the control plane write to the tables what they do to the records.
-/

namespace Holds

/-- A UE that is not configured has no entry anywhere, so four new entries make the UE. -/
theorem addUe (h : t.Holds s) (hs : s.Consistent) (policy : Policy Record)
    (mode : TransmissionMode) (hr : r ∉ s.ues) :
    (t.addUe policy r mode).Holds (SchedulerState.addUe policy s r mode) := by
  have hdownlink : r ∉ s.downlink.ues := fun hmem => hr ((hs.downlink.records.keys r).1 hmem)
  have huplink : r ∉ s.uplink.ues := fun hmem => hr ((hs.uplink.records r).1 hmem)
  exact
    { tti := h.tti
      modes := h.modes.insert rfl
      bearers := h.bearers.insert hr rfl
      queues := h.queues.insert hdownlink rfl
      elements := h.elements.insert_none hdownlink rfl
      records := h.records.insert (by rw [h.tti]; rfl)
      averages := h.averages.insert (by rw [h.tti]; rfl)
      entities := h.entities.insert rfl
      buffers := h.buffers.insert_none huplink rfl
      requests := h.requests.insert_none huplink rfl }

/-- A mode is written to the table of modes only. -/
theorem setMode (h : t.Holds s) (r : Rnti) (mode : TransmissionMode) :
    (t.setMode r mode).Holds (s.setMode r mode) :=
  { h with
    modes := h.modes.modify fun _ => rfl
    bearers := h.bearers.keep fun _ => rfl }

/-- The policy is told the same bearers. -/
theorem refreshBearers (h : t.Holds s) (policy : Policy Record) (r : Rnti) :
    (t.refreshBearers policy r).Holds (SchedulerState.refreshBearers policy s r) :=
  { h with
    queues := h.queues.keep fun _ => rfl
    elements := h.elements.keep fun _ => rfl
    records := h.records.modify fun _ => by rw [h.bearersOf]; rfl }

/-- Bearers are written to the table of bearers only, one by one. -/
theorem addBearers (h : t.Holds s) (hr : r ∈ s.ues) (bearers : List Bearer) :
    (t.addBearers r bearers).Holds (s.addBearers r bearers) :=
  { h with
    modes := h.modes.keep fun _ => rfl
    bearers := h.bearers.edit
      (Table.Edits.foldl (fun b : Bearer => Table.edits_insert r b.lcid b) bearers) hr
      fun _ => rfl }

/-- Flows are erased from two tables, one by one. -/
theorem dropBearers (h : t.Holds s) (hs : s.Consistent) (hr : r ∈ s.ues) (lcids : List Lcid) :
    (t.dropBearers r lcids).Holds (s.dropBearers r lcids) :=
  { h with
    modes := h.modes.keep fun _ => rfl
    bearers := h.bearers.edit (.foldl (Table.edits_erase r) lcids) hr fun _ => rfl
    queues := h.queues.edit (.foldl (Table.edits_erase r) lcids)
      ((hs.downlink.records.keys r).2 hr) fun _ => rfl
    elements := h.elements.keep fun _ => rfl
    records := h.records.keep fun _ => rfl }

/-- The record of a UE is gone when it is erased from all nine tables. -/
theorem removeUe (h : t.Holds s) (r : Rnti) : (t.removeUe r).Holds (s.removeUe r) where
  tti := h.tti
  modes := h.modes.erase
  bearers := h.bearers.erase
  queues := h.queues.erase
  elements := h.elements.erase
  records := h.records.erase
  averages := h.averages.erase
  entities := h.entities.erase
  buffers := h.buffers.erase
  requests := h.requests.erase

/-! ## Reports

So do reports. What is told of several UEs is written one entry after the other.
-/

/-- A queue is written to the table of queues only. -/
theorem setQueue (h : t.Holds s) (hr : r ∈ s.downlink.ues) (lcid : Lcid) (queue : RlcQueue) :
    (t.setQueue r lcid queue).Holds
      (s.modifyDownlinkUe r fun u => { u with queues := u.queues.insert lcid queue }) :=
  { h with
    queues := h.queues.edit (Table.edits_insert r lcid queue) hr fun _ => rfl
    elements := h.elements.keep fun _ => rfl
    records := h.records.keep fun _ => rfl }

/-- Control elements are written to their table only, where there need not have been any. -/
theorem addElements (h : t.Holds s) (hr : r ∈ s.downlink.ues) (elements : ControlElements) :
    (t.addElements r elements).Holds (s.modifyDownlinkUe r fun u =>
      { u with elements := some ((u.elements.getD .empty).union elements) }) :=
  { h with
    queues := h.queues.keep fun _ => rfl
    elements := h.elements.alter hr fun _ => rfl
    records := h.records.keep fun _ => rfl }

/-- A report writes the mode of its UE, which may come to nothing. -/
theorem adaptMode {out : Outcome Record} (h : t.Holds out.1) (report : CqiReport) :
    (t.adaptMode report).Holds (SchedulerState.adaptMode out report).1 := by
  have hues : (SchedulerState.adaptMode out report).1 = { out.1 with
      ues := out.1.ues.modify report.rnti fun u =>
        { u with mode := u.mode.adapt report.rank } } := by
    obtain ⟨s, said⟩ := out
    rw [SchedulerState.adaptMode]
    dsimp only
    rcases hu : s.ues[report.rnti]? with _ | u
    · rw [Table.modify_eq_self fun v hv => by cases hu.symm.trans hv]
    · dsimp only
      split
      next hmode =>
        rw [Table.modify_eq_self fun v hv => by
          obtain rfl := Option.some.inj (hu.symm.trans hv)
          rw [hmode]]
      next => rw [SchedulerState.setMode, Table.modify_eq_insert hu, Table.modify_eq_insert hu]
  rw [hues]
  exact
    { h with
      modes := h.modes.modify fun _ => rfl
      bearers := h.bearers.keep fun _ => rfl }

/-- Reports write modes if the cell adapts them, and nothing otherwise. -/
theorem learned (h : t.Holds s) (reports : List CqiReport) :
    (if s.config.rankAdaptation then reports.foldl FlatTables.adaptMode t else t).Holds
      (s.learned reports).1 := by
  have hadapted : ∀ out : Outcome Record, t.Holds out.1 →
      (reports.foldl FlatTables.adaptMode t).Holds
        (reports.foldl SchedulerState.adaptMode out).1 := by
    intro out hout
    induction reports using List.reverseRecOn with
    | nil => exact hout
    | append_singleton reports report ih =>
      rw [List.foldl_append, List.foldl_append]
      exact ih.adaptMode report
  rw [SchedulerState.learned]
  dsimp only
  split
  · exact hadapted _ { h with }
  · exact { h with }

/-- A UE that asks to send is entered in a table that has nothing but names. -/
theorem noteRequest (h : t.Holds s) (hr : r ∈ s.uplink.ues) :
    (t.noteRequest r).Holds (s.modifyUplinkUe r fun u => { u with requested := true }) :=
  { h with
    averages := h.averages.keep fun _ => rfl
    entities := h.entities.keep fun _ => rfl
    buffers := h.buffers.keep fun _ => rfl
    requests := h.requests.put hr fun _ => rfl }

/-- So are several ones, one after the other. -/
theorem foldl_noteRequest {rntis : List Rnti} (h : t.Holds s)
    (hues : ∀ r ∈ rntis, r ∈ s.uplink.ues) :
    (rntis.foldl FlatTables.noteRequest t).Holds
      (rntis.foldl (fun s r => s.modifyUplinkUe r fun u => { u with requested := true }) s) := by
  induction rntis generalizing t s with
  | nil => exact h
  | cons r rest ih =>
    obtain ⟨hr, hrest⟩ := List.forall_mem_cons.1 hues
    exact ih (h.noteRequest hr) fun r' hr' => Std.ExtTreeMap.mem_modify.2 (hrest r' hr')

/-- What a UE holds is written to the table of buffers only. -/
theorem takeControl (h : t.Holds s) {control : Rnti × UplinkControl}
    (hr : control.1 ∈ s.uplink.ues) : (t.takeControl control).Holds (s.takeControl control) := by
  obtain ⟨r, bufferStatus | powerHeadroom | identity⟩ := control
  · exact
      { h with
        averages := h.averages.keep fun _ => rfl
        entities := h.entities.keep fun _ => rfl
        buffers := h.buffers.put hr fun _ => rfl
        requests := h.requests.keep fun _ => rfl }
  · exact h
  · exact h

/-- So it is of several UEs, one after the other. -/
theorem foldl_takeControl {controls : List (Rnti × UplinkControl)} (h : t.Holds s)
    (hues : ∀ control ∈ controls, control.1 ∈ s.uplink.ues) :
    (controls.foldl FlatTables.takeControl t).Holds
      (controls.foldl SchedulerState.takeControl s) := by
  induction controls generalizing t s with
  | nil => exact h
  | cons control rest ih =>
    obtain ⟨hr, hrest⟩ := List.forall_mem_cons.1 hues
    refine ih (h.takeControl hr) fun other hother => ?_
    rcases control with ⟨r, bufferStatus | powerHeadroom | identity⟩
    · exact Std.ExtTreeMap.mem_modify.2 (hrest other hother)
    · exact hrest other hother
    · exact hrest other hother

end Holds

/-! ## A downlink subframe

The stages of the trigger, each with what it leaves in the tables: the answers store grants of the
uplink, the blocks take elements along and drain queues, and the end of the subframe records what
was sent.
-/

namespace Agree

/-- The answer to a random access is stored for a configured UE, and for nobody else. -/
theorem storeAnswer (h : t.Agree tti ues down up) (g : AccessGrant) :
    (t.storeAnswer g).Agree tti ues down (Access.storeGrant up g) :=
  { h with
    averages := h.averages.keep fun _ => rfl
    entities := h.entities.modify fun _ => rfl
    buffers := h.buffers.keep fun _ => rfl
    requests := h.requests.keep fun _ => rfl }

/-- What a block takes along is what its UE is sent. -/
theorem sendBlock (h : t.Agree tti ues down up) {u : DownlinkUe Record}
    (hu : down[r]? = some u) {b : DataGrant} (hr : b.rnti = r)
    (hpdus : b.pdus = NewData.share (NewData.activeChannels u.queues) b.grant.tbs) :
    (t.sendBlock b).Agree tti ues
      (down.insert r { u with
        queues := NewData.drainAll u.queues (NewData.activeChannels u.queues) b.grant.tbs
        elements := none }) up := by
  subst hr
  -- The same record is the outcome of a change by what the parts of the block carry.
  have hdrained : down.insert b.rnti { u with
        queues := NewData.drainAll u.queues (NewData.activeChannels u.queues) b.grant.tbs
        elements := none } =
      down.modify b.rnti fun u => { u with
        queues := b.pdus.flatten.foldl
          (fun qs pdu => qs.modify pdu.lcid (RlcQueue.drain pdu.lcid · pdu.size)) u.queues
        elements := none } := by
    rw [Table.modify_eq_insert hu, hpdus, NewData.drainAll_eq_foldl]
  rw [hdrained]
  exact
    { h with
      queues := h.queues.edit (Table.Edits.foldl (fun pdu : Pdu => Table.edits_modify b.rnti
        pdu.lcid (RlcQueue.drain pdu.lcid · pdu.size)) b.pdus.flatten)
        (Table.mem_of_getElem? hu) fun _ => rfl
      elements := h.elements.clear fun _ => rfl
      records := h.records.keep fun _ => rfl }

/-- The blocks of a pass take along what the pass sends. -/
theorem foldl_serve {start : NewData.Round Record} (h : t.Agree tti ues start.ues up)
    (hsent : start.sent = []) (setting : NewData.Setting) (proposal : Allocation)
    (cs : List Rnti) :
    ((cs.foldl (setting.serve proposal) start).sent.foldl FlatTables.sendBlock t).Agree tti ues
      (cs.foldl (setting.serve proposal) start).ues up := by
  induction cs using List.reverseRecOn with
  | nil =>
    rw [List.foldl_nil, hsent]
    exact h
  | append_singleton cs c ih =>
    rw [List.foldl_append, List.foldl_cons, List.foldl_nil]
    obtain heq | ⟨u, process, harq, -, hu, -, heq⟩ :=
      setting.skips_or_carries proposal (cs.foldl (setting.serve proposal) start) c
    · rw [heq]
      exact ih
    · rw [heq, NewData.Setting.carry]
      dsimp only
      rw [List.foldl_append]
      exact ih.sendBlock hu rfl rfl

/-- The end of a downlink subframe is written to all records, and counted. -/
theorem recordAll (h : t.Agree tti ues down up) (policy : Policy Record)
    (config : SchedulerConfig) (sent : List DataGrant) :
    (t.recordAll policy config sent).Agree (tti + 1) ues
      (DownlinkTrigger.recordAll policy config.timeWindow sent down) up :=
  { h with
    tti := congrArg (· + 1) h.tti
    queues := h.queues.keep_map fun _ _ => rfl
    elements := h.elements.keep_map fun _ _ => rfl
    records := h.records.map fun _ _ => rfl }

end Agree

/-- A downlink trigger writes what its decision says. -/
theorem Holds.downlink (h : t.Holds s) (policy : Policy Record) {grid : Grid}
    (feedback : List HarqFeedback) (hsound : s.downlink.harq.Sound) (hgrid : grid.rbgCount ≤ 32) :
    (t.downlink policy s.config (DownlinkTrigger.decision policy s grid feedback)).Holds
      (DownlinkTrigger.decide policy s grid feedback).1 := by
  have hanswered : (if s.config.harqEnabled then
      (Access.answerAll s grid).2.foldl FlatTables.storeAnswer t else t).Agree s.downlink.tti s.ues
        s.downlink.ues (Access.answerAll s grid).1.ues := by
    rw [Access.answerAll]
    dsimp only
    split
    · generalize ((Access.roundOf s grid).answer s.uplink.reserved 0 s.preambles).2 = answers
      induction answers using List.reverseRecOn with
      | nil => exact h
      | append_singleton answers g ih =>
        rw [List.foldl_append, List.foldl_append]
        exact ih.storeAnswer g
    · exact h
  have hsent : (DownlinkTrigger.start s grid feedback).sent = [] := rfl
  obtain ⟨cs, -, -, proposal, hfresh⟩ := DownlinkTrigger.fresh_eq policy s grid feedback
  have hserved := hanswered.foldl_serve hsent
    (DownlinkTrigger.setting (DownlinkTrigger.opened s grid) grid) proposal cs
  rw [← hfresh] at hserved
  rw [FlatTables.downlink, DownlinkTrigger.decision,
    DownlinkTrigger.filter_isNew_data policy feedback hsound hgrid]
  exact hserved.recordAll policy s.config _

/-! ## An uplink subframe

Requests for a grant are taken in first, then the outcomes change the entities, then the grants do,
and in the end the subframe is recorded.
-/

namespace Agree

/-- Those who asked to send are entered in the table of buffers, and the table of requests is empty
afterwards. -/
theorem takeRequests (h : t.Agree tti ues down up) (config : SchedulerConfig) :
    (t.takeRequests config).Agree tti ues down
      (up.map fun _ u => UplinkTrigger.noteRequest config.requestBytes u) :=
  { h with
    averages := h.averages.keep_map fun _ u => by
      rw [UplinkTrigger.noteRequest]
      split <;> rfl
    entities := h.entities.keep_map fun _ u => by
      rw [UplinkTrigger.noteRequest]
      split <;> rfl
    buffers := fun r => by
      -- The table of requests has exactly the names of those whose records say so.
      have hrequested : r ∈ t.requests.keys ↔ ∃ u, up[r]? = some u ∧ u.requested = true := by
        rw [Std.ExtTreeMap.mem_keys, Std.ExtTreeMap.mem_iff_isSome_getElem?, h.requests r]
        rcases up[r]? with _ | u
        · simp
        · cases hu : u.requested <;> simp [hu]
      rw [FlatTables.takeRequests]
      dsimp only
      rw [Table.getElem?_foldl_alter Std.ExtTreeMap.nodup_keys, h.buffers r,
        Std.ExtTreeMap.getElem?_map]
      rcases hu : up[r]? with _ | u
      · rw [hu] at hrequested
        rw [if_neg fun hr => by obtain ⟨_, ⟨⟩, -⟩ := hrequested.1 hr]
        rfl
      · have hmem : r ∈ t.requests.keys ↔ u.requested = true := by simp [hrequested, hu]
        rw [if_congr hmem rfl rfl]
        rw [Option.map_some, Option.bind_some, Option.bind_some, UplinkTrigger.noteRequest]
        by_cases hreq : u.requested = true
        · rw [if_pos hreq, if_pos hreq]
          rfl
        · rw [if_neg hreq, if_neg hreq]
    requests := fun r => by
      rw [FlatTables.takeRequests, Std.ExtTreeMap.getElem?_empty, Std.ExtTreeMap.getElem?_map]
      rcases up[r]? with _ | u
      · rfl
      · cases hu : u.requested <;> simp [UplinkTrigger.noteRequest, hu] }

/-- An outcome changes the processes of its UE only. -/
theorem hear (h : t.Agree tti ues down up) (o : UplinkOutcome) :
    (t.hear o).Agree tti ues down
      (up.modify o.rnti fun u => { u with harq := u.harq.hear o.reception }) :=
  { h with
    averages := h.averages.keep fun _ => rfl
    entities := h.entities.modify fun _ => rfl
    buffers := h.buffers.keep fun _ => rfl
    requests := h.requests.keep fun _ => rfl }

/-- The outcomes change the processes as the stage of retransmissions does. -/
theorem foldl_handle {round : UplinkRetry.Round} (h : t.Agree tti ues down round.ues)
    (outcomes : List UplinkOutcome) :
    (outcomes.foldl FlatTables.hear t).Agree tti ues down
      (outcomes.foldl UplinkRetry.Round.handle round).ues := by
  induction outcomes using List.reverseRecOn with
  | nil => exact h
  | append_singleton outcomes o ih =>
    rw [List.foldl_append, List.foldl_append, List.foldl_cons, List.foldl_nil, List.foldl_cons,
      List.foldl_nil, UplinkRetry.Round.ues_handle]
    exact ih.hear o

/-- A new grant changes what its UE holds, and its processes. -/
theorem grant (h : t.Agree tti ues down up) (config : SchedulerConfig) (g : UplinkGrant) :
    (t.grant config g).Agree tti ues down
      (up.modify g.rnti (UplinkNew.granted config.harqEnabled · g)) :=
  { h with
    averages := h.averages.keep fun _ => rfl
    entities := by
      rw [FlatTables.grant]
      dsimp only
      split
      next hon => exact h.entities.modify fun _ => by rw [UplinkNew.granted, if_pos hon]; rfl
      next hoff => exact h.entities.keep fun _ => by rw [UplinkNew.granted, if_neg hoff]
    buffers := h.buffers.modify fun _ => rfl
    requests := h.requests.keep fun _ => rfl }

/-- The grants of a pass change the tables as the pass does its UEs. -/
theorem serveAll {setting : UplinkNew.Setting} {start : UplinkNew.Round}
    (h : t.Agree tti ues down start.ues) (hsent : start.sent = []) {config : SchedulerConfig}
    (hconfig : setting.harqEnabled = config.harqEnabled) (cs : List Rnti) :
    ((setting.serveAll start cs).sent.foldl (FlatTables.grant config) t).Agree tti ues down
      (setting.serveAll start cs).ues := by
  rw [UplinkNew.Setting.serveAll]
  split
  · rw [hsent]
    exact h
  · induction cs using List.reverseRecOn with
    | nil =>
      rw [List.foldl_nil, hsent]
      exact h
    | append_singleton cs c ih =>
      rw [List.foldl_append, List.foldl_cons, List.foldl_nil]
      obtain ⟨hues, -, hsent⟩ | ⟨g, rfl, -, -, hues, -, hsent⟩ :=
        UplinkNew.serve_eq setting (cs.foldl setting.serve start) c
      · rw [hues, hsent]
        exact ih
      · rw [hues, hsent, List.foldl_append, hconfig]
        exact ih.grant config g

/-- The end of an uplink subframe is written to all averages, and to all processes if the cell
retransmits. -/
theorem close (h : t.Agree tti ues down up) (config : SchedulerConfig) (sent : List UplinkGrant) :
    (t.close config sent).Agree tti ues down (up.map (UplinkTrigger.close config sent)) :=
  { h with
    averages := h.averages.map fun _ _ => rfl
    entities := by
      rw [FlatTables.close]
      dsimp only
      split
      next hon => exact h.entities.map fun _ _ => by rw [UplinkTrigger.close, if_pos hon]; rfl
      next hoff => exact h.entities.keep_map fun _ _ => by rw [UplinkTrigger.close, if_neg hoff]
    buffers := h.buffers.keep_map fun _ _ => rfl
    requests := h.requests.keep_map fun _ _ => rfl }

end Agree

/-- An uplink trigger writes what its decision and the reported outcomes say. -/
theorem Holds.uplink (h : t.Holds s) (grid : Grid) (time : Subframe)
    (outcomes : List UplinkOutcome) :
    (t.uplink s.config outcomes (UplinkTrigger.decision s grid outcomes)).Holds
      (UplinkTrigger.decide s grid time outcomes).1 := by
  have hheard : (if s.config.harqEnabled then
      outcomes.foldl FlatTables.hear (t.takeRequests s.config) else t.takeRequests s.config).Agree
        s.downlink.tti s.ues s.downlink.ues (UplinkTrigger.retries s grid outcomes).ues := by
    rw [UplinkTrigger.retries, UplinkTrigger.retransmit]
    split
    · exact (h.takeRequests s.config).foldl_handle outcomes
    · exact h.takeRequests s.config
  obtain ⟨setting, start, cs, hsetting, hues, hsent, hfresh⟩ :=
    UplinkTrigger.fresh_eq s grid outcomes
  rw [← hues] at hheard
  have hserved := hheard.serveAll hsent hsetting cs
  rw [← hfresh] at hserved
  rw [FlatTables.uplink, UplinkTrigger.filter_isNew_grants]
  exact hserved.close s.config _

/-! ## Requests

With one lemma for every operation, an accepted request is a case analysis.
-/

/-- A request that is accepted writes to the tables what it does to the scheduler. -/
theorem Holds.of_step (h : t.Holds s) (hs : s.Consistent) (hinv : s.Invariant config) {q : Request}
    {said : List Indication} (hstep : s.step policy q = .ok (s', said)) :
    (t.apply policy config q said).Holds s' := by
  have hdown : ∀ r ∈ s.ues, r ∈ s.downlink.ues := fun r => (hs.downlink.records.keys r).2
  have hup : ∀ r ∈ s.ues, r ∈ s.uplink.ues := fun r => (hs.uplink.records r).2
  cases SchedulerState.accepted_of_step hstep with
  | connected | installed | cell | paged | heard | noise | sinrIgnored | sounded | unattributed
  | credited => exact { h with }
  | added _ _ hnew => exact h.addUe hs policy _ hnew
  | reconfigured => exact h.setMode _ _
  | bearersAdded hue => exact (h.addBearers hue _).refreshBearers policy _
  | bearersDropped hue => exact (h.dropBearers hs hue _).refreshBearers policy _
  | removed => exact h.removeUe _
  | queued hue => exact h.setQueue (hdown _ hue) _ _
  | elementsAdded hue => exact h.addElements (hdown _ hue) _
  | @qualityTaken reports =>
    have hwritten := h.learned reports
    rw [hinv.config] at hwritten
    exact hwritten
  | @downlink feedback grid _ hgrid =>
    have hwritten := h.downlink policy feedback hinv.sound (hinv.rbgCount_le hgrid)
    rw [hinv.config] at hwritten
    exact hwritten
  | @uplink time outcomes grid =>
    have hwritten := h.uplink grid time outcomes
    rw [hinv.config] at hwritten
    exact hwritten
  | requested hues => exact h.foldl_noteRequest fun r hr => hup r (hues r hr)
  | controlsTaken hues => exact h.foldl_takeControl fun control hc => hup _ (hues control hc)

/-! ## What follows

Statements about the records are statements about the tables: which of them have the same keys, how
large they are, and that a release leaves no entry in any of them.
-/

/-- What the tables owe each other: those that every UE has an entry in have the same keys, and the
others have entries of such UEs only. A queue other than that of the common channel has a bearer. -/
structure Closed (t : FlatTables Record) : Prop where
  /-- Every UE has a record of the policy. -/
  records : ∀ r : Rnti, r ∈ t.records ↔ r ∈ t.modes
  /-- Every UE has an average. -/
  averages : ∀ r : Rnti, r ∈ t.averages ↔ r ∈ t.modes
  /-- Every UE has uplink processes. -/
  entities : ∀ r : Rnti, r ∈ t.entities ↔ r ∈ t.modes
  /-- Control elements wait for UEs only. -/
  elements : ∀ r ∈ t.elements, r ∈ t.modes
  /-- Only UEs hold something. -/
  buffers : ∀ r ∈ t.buffers, r ∈ t.modes
  /-- Only UEs asked to send. -/
  requests : ∀ r ∈ t.requests, r ∈ t.modes
  /-- Only UEs have bearers. -/
  bearers : ∀ flow ∈ t.bearers, flow.rnti ∈ t.modes
  /-- Only UEs have queues, each with a bearer or for the common channel. -/
  queues : ∀ flow ∈ t.queues, flow.rnti ∈ t.modes ∧ (flow.lcid = 0 ∨ flow ∈ t.bearers)

/-- The tables have no trace of a UE. -/
structure Lacks (t : FlatTables Record) (r : Rnti) : Prop where
  modes : r ∉ t.modes
  records : r ∉ t.records
  averages : r ∉ t.averages
  entities : r ∉ t.entities
  elements : r ∉ t.elements
  buffers : r ∉ t.buffers
  requests : r ∉ t.requests
  bearers : ∀ flow ∈ t.bearers, flow.rnti ≠ r
  queues : ∀ flow ∈ t.queues, flow.rnti ≠ r

/-- A UE without a mode has nothing else either. -/
theorem Closed.lacks (h : t.Closed) (hr : r ∉ t.modes) : t.Lacks r where
  modes := hr
  records hmem := hr ((h.records r).1 hmem)
  averages hmem := hr ((h.averages r).1 hmem)
  entities hmem := hr ((h.entities r).1 hmem)
  elements hmem := hr (h.elements r hmem)
  buffers hmem := hr (h.buffers r hmem)
  requests hmem := hr (h.requests r hmem)
  bearers flow hmem heq := hr (heq ▸ h.bearers flow hmem)
  queues flow hmem heq := hr (heq ▸ (h.queues flow hmem).1)

namespace Holds

/-- The UEs that have a mode are the configured ones. -/
theorem mem_modes (h : t.Holds s) (r : Rnti) : r ∈ t.modes ↔ r ∈ s.ues :=
  h.modes.mem_iff fun _ => rfl

/-- What consistent tables owe each other holds of the tables apart. -/
theorem closed (h : t.Holds s) (hs : s.Consistent) : t.Closed := by
  have hdown : ∀ r, r ∈ s.downlink.ues ↔ r ∈ t.modes :=
    fun r => (hs.downlink.records.keys r).trans (h.mem_modes r).symm
  have hup : ∀ r, r ∈ s.uplink.ues ↔ r ∈ t.modes :=
    fun r => (hs.uplink.records r).trans (h.mem_modes r).symm
  refine
    { records := fun r => (h.records.mem_iff fun _ => rfl).trans (hdown r)
      averages := fun r => (h.averages.mem_iff fun _ => rfl).trans (hup r)
      entities := fun r => (h.entities.mem_iff fun _ => rfl).trans (hup r)
      elements := fun r hr => (hdown r).1 (h.elements.mem_of_mem hr)
      buffers := fun r hr => (hup r).1 (h.buffers.mem_of_mem hr)
      requests := fun r hr => (hup r).1 (h.requests.mem_of_mem hr)
      bearers := fun flow hflow => ?_
      queues := fun flow hflow => ?_ }
  · obtain ⟨u, hu, -⟩ := h.bearers.mem_iff.1 hflow
    exact (h.mem_modes _).2 (Table.mem_of_getElem? hu)
  · obtain ⟨u, hu, hlcid⟩ := h.queues.mem_iff.1 hflow
    exact ⟨(hdown _).1 (Table.mem_of_getElem? hu),
      (hs.downlink.records.queues _ u hu _ hlcid).imp_right h.bearers.mem_iff.2⟩

/-- The tables are as large as the scheduler says. -/
theorem sizes (h : t.Holds s) : s.sizes = { s.sizes with
    ues := t.modes.size
    logicalChannels := t.bearers.size
    rlcBuffers := t.queues.size
    uplinkHarq := t.entities.size
    downlinkFlows := t.records.size
    uplinkFlows := t.averages.size
    uplinkBuffers := t.buffers.size
    requests := t.requests.size
    controlElements := t.elements.size } := by
  have hrequests : (fun u : UplinkUe =>
      (if u.requested then some () else none : Option Unit).isSome) = (·.requested) := by
    funext u
    cases u.requested <;> rfl
  rw [h.bearers.size_eq, h.queues.size_eq, h.buffers.size_eq, h.elements.size_eq,
    h.requests.size_eq, hrequests, h.modes.size_eq_of_total fun _ => rfl,
    h.records.size_eq_of_total fun _ => rfl, h.averages.size_eq_of_total fun _ => rfl,
    h.entities.size_eq_of_total fun _ => rfl]
  rfl

end Holds

end FlatTables

/-- What was accepted in a run, with what was said in answer to it. -/
def transcript {Record : Type} (es : List (Event Record)) : List (Request × List Indication) :=
  es.map fun e => (e.request, e.said)

variable {Record : Type} {policy : Policy Record} {config : SchedulerConfig}
  {es : List (Event Record)} {s : SchedulerState Record}

/-- After any run the tables, computed from the requests and what was said in answer to them, hold
what the scheduler keeps. By induction over the run: each request finds tables that hold what the
scheduler kept before it, and a state that is consistent. -/
theorem Run.holds_after (hrun : Run policy config es s) :
    (FlatTables.after policy config (transcript es)).Holds s := by
  induction hrun with
  | start => exact FlatTables.holds_empty
  | step hrun hq ih =>
    rw [transcript, List.map_append, FlatTables.after, List.foldl_append]
    exact ih.of_step hrun.reachable.consistent hrun.reachable.invariant hq

/-- What the tables owe each other after any run. -/
theorem Run.closed_after (hrun : Run policy config es s) :
    (FlatTables.after policy config (transcript es)).Closed :=
  hrun.holds_after.closed hrun.reachable.consistent

/-- Once a UE has been released none of the tables has a trace of it. -/
theorem Run.lacks_after_release (hrun : Run policy config es s) {s' : SchedulerState Record}
    {r : Rnti} {said : List Indication} (hq : s.step policy (.releaseUe r) = .ok (s', said)) :
    ((FlatTables.after policy config (transcript es)).removeUe r).Lacks r := by
  have hafter := (hrun.step hq).holds_after
  have hclosed := (hrun.step hq).closed_after
  rw [transcript, List.map_append, FlatTables.after, List.foldl_append] at hafter hclosed
  refine FlatTables.Closed.lacks hclosed fun hmem => ?_
  have hgone := (hafter.mem_modes r).1 hmem
  cases SchedulerState.accepted_of_step hq with
  | removed => exact (Table.mem_erase.1 hgone).1 rfl

end LteMac
