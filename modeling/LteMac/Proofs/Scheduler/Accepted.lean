import LteMac.Proofs.Scheduler.Run

/-!
# Accepted requests

What an accepted request has passed, and what it does to the state, said once for each request
(`SchedulerState.Accepted`).

A request is a sequence of checks, each of which may refuse it, and then a change of the state.
Anything proved about accepted requests would have to take that sequence apart; the lemmas of the
first section do so for one step at a time, those of the second say what each check of the program
means, and with both, the case analysis over all requests is done here and nowhere else. Every
invariant of the scheduler is a case analysis over `Accepted`, which has one constructor for each
request, its checks as hypotheses and its effect in the conclusion.

The relation says neither too little nor too much: a request is accepted with some outcome if and
only if it is related to it. So it can also be used to show that a request is *not* refused.

* `SchedulerState.accepted_of_step`: an accepted request met its conditions, and has its effect;
* `SchedulerState.step_of_accepted`: a request that meets its conditions is accepted.
-/

namespace LteMac

/-! ## Refusals in sequence

A sequence of checks succeeds if each of its parts does, and then with the values that the parts
gave. These are equivalences, so that rewriting with them loses nothing.
-/

section Sequence

variable {ε α β : Type} {x : Except ε α} {b : β}

/-- Two steps in sequence succeed if the first one does, and the second one does with what it gave.
-/
theorem bind_eq_ok {f : α → Except ε β} :
    x >>= f = .ok b ↔ ∃ a, x = .ok a ∧ f a = .ok b := by
  cases x <;> simp [bind, Except.bind]

theorem pure_eq_ok {a : β} : (pure a : Except ε β) = .ok b ↔ a = b := by
  simp [pure, Except.pure]

theorem throw_eq_ok {e : ε} : (throw e : Except ε β) = .ok b ↔ False := by
  simp [throw, throwThe, MonadExceptOf.throw]

/-- Of a step whose value is dropped, only its success is left. -/
theorem discard_eq_ok {u : Unit} : discard x = .ok u ↔ ∃ a, x = .ok a := by
  cases x <;> simp [discard, Functor.discard, Functor.mapConst, Except.map]

/-- A choice succeeds on one of its two sides. -/
theorem ite_eq_ok {c : Prop} [Decidable c] {y z : Except ε β} :
    (if c then y else z) = .ok b ↔ c ∧ y = .ok b ∨ ¬c ∧ z = .ok b := by
  split <;> simp_all

/-- A check of all entries of a list passes if it passes for each of them. -/
theorem forM_eq_ok {xs : List α} {check : α → Except ε Unit} {u : Unit} :
    xs.forM check = .ok u ↔ ∀ a ∈ xs, check a = .ok () := by
  induction xs with
  | nil => simp [List.forM, pure_eq_ok]
  | cons a as ih =>
    rw [List.forM, bind_eq_ok, List.forall_mem_cons]
    exact ⟨fun ⟨_, ha, has⟩ => ⟨ha, ih.1 has⟩, fun ⟨ha, has⟩ => ⟨(), ha, ih.2 has⟩⟩

end Sequence

namespace SchedulerState

variable {Record : Type} {policy : Policy Record} {s s' : SchedulerState Record}
  {said : List Indication}

/-! ## Checks

What it means to pass each of the checks of the program.
-/

/-- The cell has a carrier once it is configured. -/
theorem requireGrid_eq_ok {grid : Grid} : s.requireGrid = .ok grid ↔ s.grid = some grid := by
  unfold requireGrid
  split <;> simp_all

theorem discard_requireGrid_eq_ok {u : Unit} :
    discard s.requireGrid = .ok u ↔ s.grid.isSome = true := by
  rw [discard_eq_ok, Option.isSome_iff_exists]
  exact exists_congr fun _ => requireGrid_eq_ok

theorem requireUe_eq_ok {r : Rnti} {u : Unit} : s.requireUe r = .ok u ↔ r ∈ s.ues := by
  rw [requireUe, Std.ExtTreeMap.mem_iff_contains]
  split <;> simp_all

/-- A list of UEs passes if each of them is configured. -/
theorem requireUes_eq_ok {rntis : List Rnti} {u : Unit} :
    s.requireUes rntis = .ok u ↔ ∀ r ∈ rntis, r ∈ s.ues := by
  rw [requireUes, forM_eq_ok]
  exact forall₂_congr fun _ _ => requireUe_eq_ok

theorem requireControl_eq_ok {u : Unit} :
    s.requireControl = .ok u ↔ s.controlConnected = true := by
  unfold requireControl
  split <;> simp_all

theorem requireData_eq_ok {u : Unit} : s.requireData = .ok u ↔ s.dataConnected = true := by
  unfold requireData
  split <;> simp_all

/-- A bandwidth is one of the standard ones, and is taken as it is. -/
theorem requireBandwidth_eq_ok {n m : Nat} :
    requireBandwidth n = .ok m ↔ n ∈ standardBandwidths ∧ n = m := by
  by_cases hn : n ∈ standardBandwidths
  · have hok : requireBandwidth n = .ok n := by
      rw [requireBandwidth, checkBandwidth, if_pos hn]
      rfl
    simp [hok, hn]
  · have herror : requireBandwidth n = .error (.carrier (.invalidBandwidth n)) := by
      rw [requireBandwidth, checkBandwidth, if_neg hn]
      rfl
    simp [herror, hn]

/-- Feedback passes if it is about a process that a configured UE can have. -/
theorem requireFeedback_eq_ok {f : HarqFeedback} {u : Unit} :
    DownlinkTrigger.requireFeedback s f = .ok u ↔
      f.rnti ∈ s.ues ∧ f.process < harqProcesses := by
  simp [DownlinkTrigger.requireFeedback, bind_eq_ok, requireUe_eq_ok, ite_eq_ok, throw_eq_ok,
    pure_eq_ok]

/-! ## What is accepted

One constructor for each request, and one more wherever a request has a choice. That the relation is
right is shown in both directions, request by request.
-/

/-- What is known and said after quality reports: their tables and the reuse policy take them in,
and the modes adapt to the ranks, if they do in this cell. -/
def learned (s : SchedulerState Record) (reports : List CqiReport) : Outcome Record :=
  let s := { s with
    downlink := { s.downlink with quality := reports.foldl storeQuality s.downlink.quality }
    reuse := s.reuse.learnAll reports }
  if s.config.rankAdaptation then reports.foldl adaptMode (s, []) else (s, [])

/-- A request that is accepted, with the state afterwards and what is said. The hypotheses of a
constructor are the conditions of the request, in the order in which the program checks them; a
request that is not answered has an empty list at its end. What the two triggers decide is left to
the functions that decide it, which have modules of their own. -/
inductive Accepted (policy : Policy Record) (s : SchedulerState Record) :
    Request → SchedulerState Record → List Indication → Prop
  /-- Users are connected, and stay so. -/
  | connected {control data : Bool} :
      Accepted policy s (.connect control data)
        { s with
          controlConnected := s.controlConnected || control
          dataConnected := s.dataConnected || data } []
  /-- A reuse policy is installed. If the cell has a carrier already, the policy has to fit it;
  otherwise it is checked when the cell is configured. -/
  | installed {reuse : ReusePolicy}
      (hfit : ∀ grid, s.grid = some grid → requireFit reuse grid = .ok ()) :
      Accepted policy s (.installReuse reuse) { s with reuse, reuseInstalled := true } []
  /-- The cell gets its carrier, once and for all. What is kept by block is made as long as the
  grid. -/
  | cell {downlink uplink : Nat} {reuse : ReusePolicy} (hgrid : s.grid = none)
      (hcontrol : s.controlConnected = true) (hdownlink : downlink ∈ standardBandwidths)
      (huplink : uplink ∈ standardBandwidths) (hreuse : s.reuseFor ⟨downlink, uplink⟩ = .ok reuse) :
      Accepted policy s (.configureCell downlink uplink)
        { s with
          grid := some ⟨downlink, uplink⟩
          reuse
          uplink := { s.uplink with
            reserved := .empty uplink
            quality := s.uplink.quality.setBandwidth uplink } }
        [.cellConfigured (Grid.rbgSize ⟨downlink, uplink⟩) (Grid.rbgCount ⟨downlink, uplink⟩)]
  /-- A UE is configured, with a fresh entry in every table that every UE has one in. -/
  | added {r : Rnti} {mode : TransmissionMode} (hgrid : s.grid.isSome = true)
      (hcontrol : s.controlConnected = true) (hnew : r ∉ s.ues) :
      Accepted policy s (.configureUe r mode) (addUe policy s r mode) [.ueConfigured r]
  /-- The mode of a UE is replaced, and nothing else. -/
  | reconfigured {r : Rnti} {mode : TransmissionMode} (hgrid : s.grid.isSome = true)
      (hcontrol : s.controlConnected = true) (hue : r ∈ s.ues) :
      Accepted policy s (.reconfigureUe r mode) (s.setMode r mode) [.ueConfigured r]
  /-- Bearers are added to those of a UE, but for the one that needs no configuration, and the
  policy is told. -/
  | bearersAdded {r : Rnti} {bearers : List Bearer} (hue : r ∈ s.ues)
      (hcontrol : s.controlConnected = true) :
      Accepted policy s (.configureBearers r bearers)
        (refreshBearers policy (s.addBearers r (dedicated bearers)) r)
        [.bearersConfigured r ((dedicated bearers).map (·.lcid))]
  /-- Bearers of a UE are dropped with their queues, if it has all of them, and the policy is told.
  -/
  | bearersDropped {r : Rnti} {lcids : List Lcid} (hue : r ∈ s.ues)
      (hcontrol : s.controlConnected = true)
      (hall : ∀ lcid ∈ lcids, s.hasBearer r lcid = true) :
      Accepted policy s (.releaseBearers r lcids)
        (refreshBearers policy (s.dropBearers r lcids) r) [.bearersReleased r lcids]
  /-- A UE is released, and taken out of everything. -/
  | removed {r : Rnti} (hue : r ∈ s.ues) (hcontrol : s.controlConnected = true) :
      Accepted policy s (.releaseUe r) (s.removeUe r) [.ueReleased r]
  /-- What waits on a channel of a UE is replaced. -/
  | queued {r : Rnti} {lcid : Lcid} {queue : RlcQueue} (hue : r ∈ s.ues)
      (hlcid : lcid = 0 ∨ s.hasBearer r lcid = true) :
      Accepted policy s (.queue r lcid queue)
        (s.modifyDownlinkUe r fun u => { u with queues := u.queues.insert lcid queue }) []
  /-- Messages are added to those that wait on the paging channel. -/
  | paged {messages : List PagingMessage} (hgrid : s.grid.isSome = true) :
      Accepted policy s (.paging messages)
        { s with downlink := { s.downlink with paging := s.downlink.paging ++ messages } } []
  /-- Control elements are added to those that wait for a UE. -/
  | elementsAdded {r : Rnti} {elements : ControlElements} (hue : r ∈ s.ues) :
      Accepted policy s (.controlElements r elements)
        (s.modifyDownlinkUe r fun u =>
          { u with elements := some ((u.elements.getD .empty).union elements) }) []
  /-- Preambles are added to those that wait for an answer. -/
  | heard {preambles : List Preamble} (hgrid : s.grid.isSome = true) :
      Accepted policy s (.randomAccess preambles)
        { s with preambles := s.preambles ++ preambles } []
  /-- Reports on the downlink are taken in, if each of them is about a configured UE. -/
  | qualityTaken {reports : List CqiReport} (hgrid : s.grid.isSome = true)
      (hues : ∀ report ∈ reports, report.rnti ∈ s.ues) :
      Accepted policy s (.quality reports) (s.learned reports).1 (s.learned reports).2
  /-- A downlink subframe is decided, if each feedback is about a process that its UE has. -/
  | downlink {feedback : List HarqFeedback} {grid : Grid} (hdata : s.dataConnected = true)
      (hgrid : s.grid = some grid)
      (hfeedback : ∀ f ∈ feedback, f.rnti ∈ s.ues ∧ f.process < harqProcesses) :
      Accepted policy s (.downlinkTrigger feedback)
        (DownlinkTrigger.decide policy s grid feedback).1
        (DownlinkTrigger.decide policy s grid feedback).2
  /-- An uplink subframe is decided, if each outcome is about a configured UE. -/
  | uplink {time : Subframe} {outcomes : List UplinkOutcome} {grid : Grid}
      (hdata : s.dataConnected = true) (hgrid : s.grid = some grid)
      (houtcomes : ∀ o ∈ outcomes, o.rnti ∈ s.ues) :
      Accepted policy s (.uplinkTrigger time outcomes)
        (UplinkTrigger.decide s grid time outcomes).1 (UplinkTrigger.decide s grid time outcomes).2
  /-- Noise is taken note of, and that is all. -/
  | noise (hgrid : s.grid.isSome = true) : Accepted policy s .noise s []
  /-- UEs ask to be granted something. -/
  | requested {rntis : List Rnti} (hues : ∀ r ∈ rntis, r ∈ s.ues) :
      Accepted policy s (.schedulingRequests rntis)
        (rntis.foldl (fun s r => s.modifyUplinkUe r fun u => { u with requested := true }) s) []
  /-- Control elements of UEs are taken in, one after the other. -/
  | controlsTaken {controls : List (Rnti × UplinkControl)}
      (hues : ∀ control ∈ controls, control.1 ∈ s.ues) :
      Accepted policy s (.uplinkControls controls) (controls.foldl takeControl s) []
  /-- Measurements that the cell does not work with. -/
  | sinrIgnored {time : Subframe} {source : SinrSource} {codes : List UInt16}
      {rnti : Option Rnti} (hgrid : s.grid.isSome = true)
      (hsource : source ≠ s.config.sinrSource) :
      Accepted policy s (.sinr time source codes rnti) s []
  /-- Measurements on sounding replace the report of the UE that sent it. -/
  | sounded {r : Rnti} {time : Subframe} {codes : List UInt16} (hgrid : s.grid.isSome = true)
      (hsource : s.config.sinrSource = .sounding) (hue : r ∈ s.ues) :
      Accepted policy s (.sinr time .sounding codes (some r))
        { s with uplink := { s.uplink with
          quality := s.uplink.quality.replace r (codes.map Sinr.decode) } } []
  /-- Measurements on data blocks of a subframe that no map is kept of. -/
  | unattributed {time : Subframe} {codes : List UInt16} {rnti : Option Rnti}
      (hgrid : s.grid.isSome = true) (hsource : s.config.sinrSource = .data)
      (hnone : s.uplink.history.find? (·.1 = time) = none) :
      Accepted policy s (.sinr time .data codes rnti) s []
  /-- Measurements on data blocks are credited to those who sent them, and the map is used up. -/
  | credited {time : Subframe} {codes : List UInt16} {rnti : Option Rnti}
      {past : Subframe × BlockMap} (hgrid : s.grid.isSome = true)
      (hsource : s.config.sinrSource = .data)
      (hpast : s.uplink.history.find? (·.1 = time) = some past) :
      Accepted policy s (.sinr time .data codes rnti)
        { s with uplink := { s.uplink with
          quality := s.creditSamples past.2 (codes.map Sinr.decode)
          history := s.uplink.history.eraseP (·.1 = time) } } []

/-- Uplink measurements come in four kinds, which check different things and are kept in different
places. An accepted one is of a kind that the scheduler takes. -/
theorem accepted_of_takeSinr {time : Subframe} {source : SinrSource} {codes : List UInt16}
    {rnti : Option Rnti} (h : s.takeSinr time source codes rnti = .ok (s', said)) :
    Accepted policy s (.sinr time source codes rnti) s' said := by
  simp only [takeSinr, bind_eq_ok, discard_requireGrid_eq_ok, ite_eq_ok, pure_eq_ok] at h
  obtain ⟨-, hgrid, ⟨hsource, h⟩ | ⟨hsource, h⟩⟩ := h
  · obtain ⟨rfl, rfl⟩ := Prod.mk.inj h
    exact .sinrIgnored hgrid hsource
  · have hsource := (Decidable.not_not.1 hsource).symm
    cases source with
    | sounding =>
      cases rnti with
      | none => simp [throw_eq_ok] at h
      | some r =>
        simp only [bind_eq_ok, requireUe_eq_ok, pure_eq_ok] at h
        obtain ⟨-, hue, h⟩ := h
        obtain ⟨rfl, rfl⟩ := Prod.mk.inj h
        exact .sounded hgrid hsource hue
    | data =>
      cases hpast : s.uplink.history.find? (·.1 = time) with
      | none =>
        simp only [hpast, pure_eq_ok] at h
        obtain ⟨rfl, rfl⟩ := Prod.mk.inj h
        exact .unattributed hgrid hsource hpast
      | some past =>
        simp only [hpast, pure_eq_ok] at h
        obtain ⟨rfl, rfl⟩ := Prod.mk.inj h
        exact .credited hgrid hsource hpast

/-- An accepted request met its conditions, and has its effect. -/
theorem accepted_of_step {q : Request} (h : s.step policy q = .ok (s', said)) :
    Accepted policy s q s' said := by
  -- In each case the checks are read off one after the other. What is left of the hypothesis then
  -- says what the new state is and what was said.
  cases q with
  | connect control data =>
    obtain ⟨rfl, rfl⟩ := Prod.mk.inj (Except.ok.inj h)
    exact .connected
  | installReuse reuse =>
    simp only [step, installReuse] at h
    split at h
    next grid hgrid =>
      simp only [bind_eq_ok, pure_eq_ok] at h
      obtain ⟨_, hfit, h⟩ := h
      obtain ⟨rfl, rfl⟩ := Prod.mk.inj h
      exact .installed fun grid' h => Option.some.inj (hgrid.symm.trans h) ▸ hfit
    next hgrid =>
      obtain ⟨rfl, rfl⟩ := Prod.mk.inj (pure_eq_ok.1 h)
      exact .installed fun grid h => by cases hgrid.symm.trans h
  | configureCell downlink uplink =>
    simp only [step, configureCell, bind_eq_ok, ite_eq_ok, throw_eq_ok, requireControl_eq_ok,
      requireBandwidth_eq_ok, pure_eq_ok] at h
    obtain ⟨-, _, ⟨⟩, -⟩ | ⟨hgrid, -, hcontrol, _, ⟨hd, rfl⟩, _, ⟨hu, rfl⟩, reuse, hreuse, h⟩ := h
    obtain ⟨rfl, rfl⟩ := Prod.mk.inj h
    exact .cell (by simpa using hgrid) hcontrol hd hu hreuse
  | configureUe r mode =>
    simp only [step, configureUe, bind_eq_ok, discard_requireGrid_eq_ok, requireControl_eq_ok,
      ite_eq_ok, throw_eq_ok, pure_eq_ok, ← Std.ExtTreeMap.mem_iff_contains] at h
    obtain ⟨-, hgrid, -, hcontrol, ⟨-, _, ⟨⟩, -⟩ | ⟨hnew, h⟩⟩ := h
    obtain ⟨rfl, rfl⟩ := Prod.mk.inj h
    exact .added hgrid hcontrol hnew
  | reconfigureUe r mode =>
    simp only [step, reconfigureUe, bind_eq_ok, discard_requireGrid_eq_ok, requireControl_eq_ok,
      requireUe_eq_ok, pure_eq_ok] at h
    obtain ⟨-, hgrid, -, hcontrol, -, hue, h⟩ := h
    obtain ⟨rfl, rfl⟩ := Prod.mk.inj h
    exact .reconfigured hgrid hcontrol hue
  | configureBearers r bearers =>
    simp only [step, configureBearers, bind_eq_ok, requireControl_eq_ok, requireUe_eq_ok,
      pure_eq_ok] at h
    obtain ⟨-, hue, -, hcontrol, h⟩ := h
    obtain ⟨rfl, rfl⟩ := Prod.mk.inj h
    exact .bearersAdded hue hcontrol
  | reconfigureBearers r => simp [step, reconfigureBearers, bind_eq_ok, throw_eq_ok] at h
  | releaseBearers r lcids =>
    simp only [step, releaseBearers, bind_eq_ok, requireControl_eq_ok, requireUe_eq_ok] at h
    obtain ⟨-, hue, -, hcontrol, h⟩ := h
    split at h
    · simp [throw_eq_ok] at h
    next hnone =>
      obtain ⟨rfl, rfl⟩ := Prod.mk.inj (pure_eq_ok.1 h)
      exact .bearersDropped hue hcontrol (by simpa using hnone)
  | releaseUe r =>
    simp only [step, releaseUe, bind_eq_ok, requireControl_eq_ok, requireUe_eq_ok,
      pure_eq_ok] at h
    obtain ⟨-, hue, -, hcontrol, h⟩ := h
    obtain ⟨rfl, rfl⟩ := Prod.mk.inj h
    exact .removed hue hcontrol
  | queue r lcid queue =>
    simp only [step, setQueue, bind_eq_ok, requireUe_eq_ok, ite_eq_ok, throw_eq_ok,
      pure_eq_ok] at h
    obtain ⟨-, hue, ⟨-, _, ⟨⟩, -⟩ | ⟨hlcid, h⟩⟩ := h
    obtain ⟨rfl, rfl⟩ := Prod.mk.inj h
    refine .queued hue ?_
    simpa [Decidable.or_iff_not_imp_left] using hlcid
  | paging messages =>
    simp only [step, queuePaging, bind_eq_ok, discard_requireGrid_eq_ok, pure_eq_ok] at h
    obtain ⟨-, hgrid, h⟩ := h
    obtain ⟨rfl, rfl⟩ := Prod.mk.inj h
    exact .paged hgrid
  | controlElements r elements =>
    simp only [step, addElements, bind_eq_ok, requireUe_eq_ok, pure_eq_ok] at h
    obtain ⟨-, hue, h⟩ := h
    obtain ⟨rfl, rfl⟩ := Prod.mk.inj h
    exact .elementsAdded hue
  | randomAccess preambles =>
    simp only [step, hearPreambles, bind_eq_ok, discard_requireGrid_eq_ok, pure_eq_ok] at h
    obtain ⟨-, hgrid, h⟩ := h
    obtain ⟨rfl, rfl⟩ := Prod.mk.inj h
    exact .heard hgrid
  | quality reports =>
    simp only [step, takeQuality, bind_eq_ok, discard_requireGrid_eq_ok, requireUes_eq_ok,
      List.forall_mem_map, pure_eq_ok] at h
    obtain ⟨-, hgrid, -, hues, h⟩ := h
    obtain ⟨rfl, rfl⟩ := Prod.ext_iff.1 (h : s.learned reports = _)
    exact .qualityTaken hgrid hues
  | downlinkTrigger feedback =>
    simp only [step, DownlinkTrigger.run, bind_eq_ok, requireData_eq_ok, requireGrid_eq_ok,
      forM_eq_ok, requireFeedback_eq_ok, pure_eq_ok] at h
    obtain ⟨-, hdata, grid, hgrid, -, hfeedback, h⟩ := h
    obtain ⟨rfl, rfl⟩ := Prod.ext_iff.1 h
    exact .downlink hdata hgrid hfeedback
  | uplinkTrigger time outcomes =>
    simp only [step, UplinkTrigger.run, bind_eq_ok, requireData_eq_ok, requireGrid_eq_ok,
      requireUes_eq_ok, List.forall_mem_map, pure_eq_ok] at h
    obtain ⟨-, hdata, grid, hgrid, -, houtcomes, h⟩ := h
    obtain ⟨rfl, rfl⟩ := Prod.ext_iff.1 h
    exact .uplink hdata hgrid houtcomes
  | noise =>
    simp only [step, takeNoise, bind_eq_ok, discard_requireGrid_eq_ok, pure_eq_ok] at h
    obtain ⟨-, hgrid, h⟩ := h
    obtain ⟨rfl, rfl⟩ := Prod.mk.inj h
    exact .noise hgrid
  | schedulingRequests rntis =>
    simp only [step, takeRequests, bind_eq_ok, requireUes_eq_ok, pure_eq_ok] at h
    obtain ⟨-, hues, h⟩ := h
    obtain ⟨rfl, rfl⟩ := Prod.mk.inj h
    exact .requested hues
  | uplinkControls controls =>
    simp only [step, takeControls, bind_eq_ok, requireUes_eq_ok, List.forall_mem_map,
      pure_eq_ok] at h
    obtain ⟨-, hues, h⟩ := h
    obtain ⟨rfl, rfl⟩ := Prod.mk.inj h
    exact .controlsTaken hues
  | sinr time source codes rnti => exact accepted_of_takeSinr h

/-- Measurements that meet the conditions of their kind are taken. -/
theorem takeSinr_of_accepted {time : Subframe} {source : SinrSource} {codes : List UInt16}
    {rnti : Option Rnti} (h : Accepted policy s (.sinr time source codes rnti) s' said) :
    s.takeSinr time source codes rnti = .ok (s', said) := by
  simp only [takeSinr, bind_eq_ok, discard_requireGrid_eq_ok, ite_eq_ok, pure_eq_ok]
  cases h with
  | sinrIgnored hgrid hsource => exact ⟨(), hgrid, .inl ⟨hsource, rfl⟩⟩
  | sounded hgrid hsource hue =>
    refine ⟨(), hgrid, .inr ⟨fun hne => hne hsource.symm, ?_⟩⟩
    exact bind_eq_ok.2 ⟨(), requireUe_eq_ok.2 hue, rfl⟩
  | unattributed hgrid hsource hnone =>
    refine ⟨(), hgrid, .inr ⟨fun hne => hne hsource.symm, ?_⟩⟩
    simp only [hnone, pure_eq_ok]
  | credited hgrid hsource hpast =>
    refine ⟨(), hgrid, .inr ⟨fun hne => hne hsource.symm, ?_⟩⟩
    simp only [hpast, pure_eq_ok]

/-- A request that meets its conditions is accepted, with the effect that goes with them. -/
theorem step_of_accepted {q : Request} (h : Accepted policy s q s' said) :
    s.step policy q = .ok (s', said) := by
  have haccepted := h
  cases h with
  | connected => rfl
  -- The checks are passed in the order in which the request makes them.
  | installed hfit =>
    simp only [step, installReuse]
    split
    next grid hgrid => exact bind_eq_ok.2 ⟨(), hfit grid hgrid, rfl⟩
    next => rfl
  | cell hgrid hcontrol hdownlink huplink hreuse =>
    simp only [step, configureCell, bind_eq_ok, ite_eq_ok, requireControl_eq_ok,
      requireBandwidth_eq_ok, pure_eq_ok]
    exact .inr ⟨by simp [hgrid], (), hcontrol, _, ⟨hdownlink, rfl⟩, _, ⟨huplink, rfl⟩, _, hreuse,
      rfl⟩
  | added hgrid hcontrol hnew =>
    simp only [step, configureUe, bind_eq_ok, discard_requireGrid_eq_ok, requireControl_eq_ok,
      ite_eq_ok, pure_eq_ok, ← Std.ExtTreeMap.mem_iff_contains]
    exact ⟨(), hgrid, (), hcontrol, .inr ⟨hnew, trivial⟩⟩
  | reconfigured hgrid hcontrol hue =>
    simp only [step, reconfigureUe, bind_eq_ok, discard_requireGrid_eq_ok, requireControl_eq_ok,
      requireUe_eq_ok, pure_eq_ok]
    exact ⟨(), hgrid, (), hcontrol, (), hue, trivial⟩
  | bearersAdded hue hcontrol =>
    simp only [step, configureBearers, bind_eq_ok, requireControl_eq_ok, requireUe_eq_ok,
      pure_eq_ok]
    exact ⟨(), hue, (), hcontrol, trivial⟩
  | @bearersDropped r lcids hue hcontrol hall =>
    have hnone : lcids.find? (!s.hasBearer r ·) = none := by simpa using hall
    simp only [step, releaseBearers, bind_eq_ok, requireControl_eq_ok, requireUe_eq_ok, hnone,
      pure_eq_ok]
    exact ⟨(), hue, (), hcontrol, trivial⟩
  | removed hue hcontrol =>
    simp only [step, releaseUe, bind_eq_ok, requireControl_eq_ok, requireUe_eq_ok, pure_eq_ok]
    exact ⟨(), hue, (), hcontrol, trivial⟩
  | queued hue hlcid =>
    simp only [step, setQueue, bind_eq_ok, requireUe_eq_ok, ite_eq_ok, pure_eq_ok]
    refine ⟨(), hue, .inr ⟨?_, trivial⟩⟩
    simpa [Decidable.or_iff_not_imp_left] using hlcid
  | paged hgrid =>
    simp only [step, queuePaging, bind_eq_ok, discard_requireGrid_eq_ok, pure_eq_ok]
    exact ⟨(), hgrid, trivial⟩
  | elementsAdded hue =>
    simp only [step, addElements, bind_eq_ok, requireUe_eq_ok, pure_eq_ok]
    exact ⟨(), hue, trivial⟩
  | heard hgrid =>
    simp only [step, hearPreambles, bind_eq_ok, discard_requireGrid_eq_ok, pure_eq_ok]
    exact ⟨(), hgrid, trivial⟩
  | qualityTaken hgrid hues =>
    simp only [step, takeQuality, bind_eq_ok, discard_requireGrid_eq_ok, requireUes_eq_ok,
      List.forall_mem_map, pure_eq_ok]
    exact ⟨(), hgrid, (), hues, rfl⟩
  | downlink hdata hgrid hfeedback =>
    simp only [step, DownlinkTrigger.run, bind_eq_ok, requireData_eq_ok, requireGrid_eq_ok,
      forM_eq_ok, requireFeedback_eq_ok, pure_eq_ok]
    exact ⟨(), hdata, _, hgrid, (), hfeedback, rfl⟩
  | uplink hdata hgrid houtcomes =>
    simp only [step, UplinkTrigger.run, bind_eq_ok, requireData_eq_ok, requireGrid_eq_ok,
      requireUes_eq_ok, List.forall_mem_map, pure_eq_ok]
    exact ⟨(), hdata, _, hgrid, (), houtcomes, rfl⟩
  | noise hgrid =>
    simp only [step, takeNoise, bind_eq_ok, discard_requireGrid_eq_ok, pure_eq_ok]
    exact ⟨(), hgrid, trivial⟩
  | requested hues =>
    simp only [step, takeRequests, bind_eq_ok, requireUes_eq_ok, pure_eq_ok]
    exact ⟨(), hues, trivial⟩
  | controlsTaken hues =>
    simp only [step, takeControls, bind_eq_ok, requireUes_eq_ok, List.forall_mem_map,
      pure_eq_ok]
    exact ⟨(), hues, trivial⟩
  | sinrIgnored | sounded | unattributed | credited => exact takeSinr_of_accepted haccepted

end SchedulerState

end LteMac
