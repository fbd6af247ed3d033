import LteMac.Proofs.Scheduler.Names
import LteMac.Proofs.Scheduler.Removal

/-!
# Cells in service

A cell is in service for some UEs (`SchedulerState.Serves`) if it is set up and just these UEs are
configured, each with a bearer on a given channel. Then it accepts every report about them and every
trigger, and stays in service for the same UEs. UEs come and go one at a time, and after the last
one nothing is left.

Being in service is made of parts that were proved before: the state is reachable, so all invariants
hold; nobody but the known UEs has left a trace in it; and the cell is equipped, which is what the
checks of everyday requests look at. The last part is not an invariant of the scheduler, since a
request may release a bearer; but it is one of the requests a cell makes of its own
(`Request.Routine`).

That a request is not refused is shown by the characterisation of accepted requests: all conditions
of its constructor hold, so there is an outcome.

* `SchedulerState.Serves.exists_step`: no request of everyday operation is refused;
* `SchedulerState.Serves.enroll`, `SchedulerState.Serves.dismiss`: a UE comes, and a UE goes;
* `SchedulerState.Serves.sizes_eq_zero`: a cell in service for nobody holds nothing.
-/

namespace LteMac

/-- Requests of everyday operation: reports about UEs that are reached on the channel `lcid`, and
triggers. -/
def Request.Routine (lcid : Lcid) : Request → Prop
  | .queue _ channel _ => channel = lcid
  | .downlinkTrigger feedback => ∀ f ∈ feedback, f.process < harqProcesses
  | .sinr _ .sounding _ rnti => rnti.isSome = true
  | .sinr _ .data _ _ | .randomAccess _ | .quality _ | .uplinkTrigger .. | .noise
  | .schedulingRequests _ | .uplinkControls _ => True
  | _ => False

/-- A map in which only nobody owns blocks. -/
theorem BlockMap.Within.held_eq_zero {m : BlockMap} (h : m.Within fun _ => False) :
    m.held = 0 := by
  refine Array.countP_eq_zero.2 fun r hr => ?_
  obtain ⟨i, hi⟩ := Array.mem_iff_getElem?.1 hr
  simpa using h i r hi

namespace SchedulerState

variable {Record : Type} {policy : Policy Record} {config : SchedulerConfig}
  {s s' : SchedulerState Record} {known : Rnti → Prop} {lcid : Lcid} {r : Rnti}
  {said : List Indication}

/-- A UE with a bearer is configured. -/
theorem mem_of_hasBearer (h : s.hasBearer r lcid = true) : r ∈ s.ues := by
  cases hu : s.ues[r]? with
  | none => simp [hasBearer, hu] at h
  | some u => exact Table.mem_of_getElem? hu

/-! ## A cell that is set up -/

/-- The cell has a grid, its users listen, and the UEs `known` have a bearer on the channel
`lcid`. -/
structure Equipped (known : Rnti → Prop) (lcid : Lcid) (s : SchedulerState Record) : Prop where
  /-- The cell is configured. -/
  grid : s.grid.isSome = true
  /-- Somebody listens to the answers of the control plane. -/
  control : s.controlConnected = true
  /-- Somebody listens to the decisions. -/
  data : s.dataConnected = true
  /-- The UEs have their bearer. -/
  bearers : ∀ r, known r → s.hasBearer r lcid = true

namespace Equipped

/-- A mode that adapts leaves the bearers. -/
theorem adaptMode {out : Outcome Record} (h : out.1.Equipped known lcid) (report : CqiReport) :
    (adaptMode out report).1.Equipped known lcid := by
  obtain ⟨s, said⟩ := out
  simp only [SchedulerState.adaptMode]
  split
  · exact h
  · split
    · exact h
    · refine { h with bearers := fun r hr => ?_ }
      -- A UE whose mode is changed keeps its bearers.
      have hbearer := h.bearers r hr
      simp only [setMode, hasBearer, Table.getElem?_modify] at hbearer ⊢
      split
      · next heq => simpa [heq, Option.any_map, Function.comp_def] using hbearer
      · exact hbearer

/-- Reports leave what is set up. -/
theorem learned (h : s.Equipped known lcid) (reports : List CqiReport) :
    (s.learned reports).1.Equipped known lcid := by
  simp only [SchedulerState.learned]
  split
  · refine List.foldlRecOn (motive := fun (out : Outcome Record) => out.1.Equipped known lcid) _ _
      ?_ fun out hout report _ => hout.adaptMode report
    exact { h with }
  · exact { h with }

/-- So do control elements. -/
theorem takeControl (h : s.Equipped known lcid) (control : Rnti × UplinkControl) :
    (s.takeControl control).Equipped known lcid := by
  simp only [SchedulerState.takeControl]
  split
  · exact { h with }
  · exact h
  · exact h

/-- Requests of everyday operation leave what is set up. -/
theorem of_step (h : s.Equipped known lcid) {q : Request} (hq : q.Routine lcid)
    (hstep : s.step policy q = .ok (s', said)) : s'.Equipped known lcid := by
  cases accepted_of_step hstep with
  | queued | heard | downlink | uplink | sounded | credited => exact { h with }
  | noise | sinrIgnored | unattributed => exact h
  | qualityTaken => exact h.learned _
  | requested => exact List.foldlRecOn _ _ h fun _ hs _ _ => { hs with }
  | controlsTaken => exact List.foldlRecOn _ _ h fun _ hs control _ => hs.takeControl control
  | _ => exact hq.elim

end Equipped

/-! ## A new cell -/

/-- A cell that was just set up. -/
def newCell (config : SchedulerConfig) (grid : Grid) (reuse : ReusePolicy) :
    SchedulerState Record :=
  let start : SchedulerState Record := .initial config
  { start with
    controlConnected := true
    dataConnected := true
    grid := some grid
    reuse
    reuseInstalled := true
    uplink := { start.uplink with
      reserved := .empty grid.uplink
      quality := start.uplink.quality.setBandwidth grid.uplink } }

/-- A cell is set up by three requests, none of which is refused for a standard bandwidth and a
reuse policy that fits. -/
theorem replay_newCell (policy : Policy Record) (config : SchedulerConfig) {grid : Grid}
    (hdownlink : grid.downlink ∈ standardBandwidths) (huplink : grid.uplink ∈ standardBandwidths)
    {reuse : ReusePolicy} (hfit : requireFit reuse grid = .ok ()) :
    ∃ es, (initial config).replay policy
      [.connect true true, .configureCell grid.downlink grid.uplink, .installReuse reuse] =
        .ok (es, newCell config grid reuse) := by
  have hfits : ∀ grid', some grid = some grid' → requireFit reuse grid' = .ok () :=
    fun grid' hgrid => Option.some.inj hgrid ▸ hfit
  -- Before a policy is installed, the cell has one that restricts nothing.
  have hfull : reuseFor { (initial config : SchedulerState Record) with
      controlConnected := true
      dataConnected := true } grid = .ok (.full grid.rbgCount grid.uplink) := rfl
  exact ⟨_, replay_cons_eq_ok.2 ⟨_, _, _, step_of_accepted .connected,
    replay_cons_eq_ok.2 ⟨_, _, _, step_of_accepted (.cell rfl rfl hdownlink huplink hfull),
      replay_cons_eq_ok.2 ⟨_, _, _, step_of_accepted (.installed hfits), rfl, rfl⟩, rfl⟩, rfl⟩⟩

/-! ## A cell in service -/

/-- The cell is in service for the UEs `known`, each of which is reached on the channel `lcid`. -/
structure Serves (policy : Policy Record) (config : SchedulerConfig) (known : Rnti → Prop)
    (lcid : Lcid) (s : SchedulerState Record) : Prop extends s.Equipped known lcid where
  /-- The state is one that requests lead to. -/
  reachable : Reachable policy config s
  /-- Nobody else is known to the cell. -/
  within : s.Within known

/-- A cell that was just set up is in service for nobody, if its reuse policy remembers nobody. -/
theorem serves_newCell (policy : Policy Record) (config : SchedulerConfig) (lcid : Lcid)
    {grid : Grid} (hdownlink : grid.downlink ∈ standardBandwidths)
    (huplink : grid.uplink ∈ standardBandwidths) {reuse : ReusePolicy}
    (hfit : requireFit reuse grid = .ok ()) (hblank : ∀ r, reuse.memory r = .blank) :
    (newCell config grid reuse).Serves policy config (fun _ => False) lcid := by
  obtain ⟨es, hes⟩ := replay_newCell policy config hdownlink huplink hfit
  have hinitial : (initial config : SchedulerState Record).Within fun _ => False := .initial
  refine ⟨⟨rfl, rfl, rfl, fun _ => False.elim⟩, ⟨_, Run.start.append_replay hes⟩, ?_⟩
  exact { hinitial with
    reserved := .empty grid.uplink
    reuse := fun r hr => absurd (hblank r) hr }

namespace Serves

/-- The configured UEs are the known ones. -/
theorem mem_iff (h : s.Serves policy config known lcid) : r ∈ s.ues ↔ known r :=
  ⟨h.within.ues r, fun hr => mem_of_hasBearer (h.bearers r hr)⟩

/-- A request of everyday operation meets its conditions. -/
theorem accepted (h : s.Serves policy config known lcid) {q : Request} (hq : q.Routine lcid)
    (hknown : ∀ r ∈ q.rntis, known r) : ∃ s' said, Accepted policy s q s' said := by
  have hues : ∀ r ∈ q.rntis, r ∈ s.ues := fun r hr => h.mem_iff.2 (hknown r hr)
  obtain ⟨grid, hgrid⟩ := Option.isSome_iff_exists.1 h.grid
  cases q with
  | queue r channel queue =>
    have hbearer : s.hasBearer r channel = true :=
      hq ▸ h.bearers r (hknown r (List.mem_singleton_self r))
    exact ⟨_, _, .queued (mem_of_hasBearer hbearer) (.inr hbearer)⟩
  | randomAccess => exact ⟨_, _, .heard h.grid⟩
  | quality => exact ⟨_, _, .qualityTaken h.grid (List.forall_mem_map.1 hues)⟩
  | downlinkTrigger feedback =>
    refine ⟨_, _, .downlink h.data hgrid fun f hf => ⟨?_, hq f hf⟩⟩
    exact hues _ (List.mem_map_of_mem hf)
  | uplinkTrigger => exact ⟨_, _, .uplink h.data hgrid (List.forall_mem_map.1 hues)⟩
  | noise => exact ⟨_, _, .noise h.grid⟩
  | schedulingRequests => exact ⟨_, _, .requested hues⟩
  | uplinkControls => exact ⟨_, _, .controlsTaken (List.forall_mem_map.1 hues)⟩
  | sinr time source codes rnti =>
    -- Reports of the other kind are accepted and ignored.
    by_cases hsource : source = s.config.sinrSource
    · cases source with
      | sounding =>
        obtain ⟨r, rfl⟩ := Option.isSome_iff_exists.1 hq
        exact ⟨_, _, .sounded h.grid hsource.symm (hues r (List.mem_singleton_self r))⟩
      | data =>
        cases hpast : s.uplink.history.find? (·.1 = time) with
        | none => exact ⟨_, _, .unattributed h.grid hsource.symm hpast⟩
        | some past => exact ⟨_, _, .credited h.grid hsource.symm hpast⟩
    · exact ⟨_, _, .sinrIgnored h.grid hsource⟩
  | _ => exact hq.elim

/-- A request of everyday operation leaves the cell in service. -/
theorem of_step (h : s.Serves policy config known lcid) {q : Request} (hq : q.Routine lcid)
    (hknown : ∀ r ∈ q.rntis, known r) (hstep : s.step policy q = .ok (s', said)) :
    s'.Serves policy config known lcid := by
  refine ⟨h.toEquipped.of_step hq hstep, h.reachable.step hstep, ?_⟩
  refine h.within.of_step h.reachable.consistent ?_ hstep
  rintro r (hr | ⟨reuse, rfl, -⟩)
  · exact hknown r hr
  · exact hq.elim

/-- A request of everyday operation is not refused. -/
theorem exists_step (h : s.Serves policy config known lcid) {q : Request} (hq : q.Routine lcid)
    (hknown : ∀ r ∈ q.rntis, known r) :
    ∃ s' said, s.step policy q = .ok (s', said) ∧ s'.Serves policy config known lcid := by
  obtain ⟨s', said, haccepted⟩ := h.accepted hq hknown
  have hstep := step_of_accepted haccepted
  exact ⟨s', said, hstep, h.of_step hq hknown hstep⟩

/-- Nor is any of a list of requests. -/
theorem exists_replay (h : s.Serves policy config known lcid) {qs : List Request}
    (hqs : ∀ q ∈ qs, q.Routine lcid ∧ ∀ r ∈ q.rntis, known r) :
    ∃ es s', s.replay policy qs = .ok (es, s') ∧ s'.Serves policy config known lcid :=
  SchedulerState.exists_replay (P := fun s => s.Serves policy config known lcid)
    (fun q hq _ hs => hs.exists_step (hqs q hq).1 (hqs q hq).2) h

/-- A downlink trigger grants blocks to the UEs in service and answers no others. -/
theorem names_downlink (h : s.Serves policy config known lcid) {feedback : List HarqFeedback}
    (hstep : s.step policy (.downlinkTrigger feedback) = .ok (s', said)) :
    (∀ b ∈ said.flatMap (·.blocks), known b.rnti ∧ b.grant.process < harqProcesses) ∧
      ∀ a ∈ said.flatMap (·.answers), known a.rnti := by
  have hinv := h.reachable.invariant
  cases effect_of_step hstep with
  | quiet hq => cases hq
  | @downlink _ grid hgrid =>
    obtain ⟨hdata, haccess⟩ := DownlinkTrigger.names_decision feedback policy
      h.reachable.consistent hinv.sound (hinv.rbgCount_le hgrid)
    -- What is said is the one decision, so its blocks and answers are all there are.
    have hblocks : ((DownlinkTrigger.decide policy s grid feedback).2.flatMap (·.blocks)) =
        (DownlinkTrigger.decision policy s grid feedback).data := List.append_nil _
    have hanswers : ((DownlinkTrigger.decide policy s grid feedback).2.flatMap (·.answers)) =
        (DownlinkTrigger.decision policy s grid feedback).access := List.append_nil _
    rw [hblocks, hanswers]
    constructor
    · intro b hb
      obtain ⟨hmem, hprocess⟩ := hdata b hb
      exact ⟨h.mem_iff.1 hmem, hprocess⟩
    · intro a ha
      obtain ⟨p, hp, hname⟩ := haccess a ha
      exact hname ▸ h.within.preambles p hp

/-- An uplink trigger grants blocks to the UEs in service. -/
theorem names_uplink (h : s.Serves policy config known lcid) {time : Subframe}
    {outcomes : List UplinkOutcome}
    (hstep : s.step policy (.uplinkTrigger time outcomes) = .ok (s', said)) :
    ∀ g ∈ said.flatMap (·.grants), known g.rnti := by
  have hsound : UplinkTable.Sound s.uplink.ues :=
    Run.reachable_invariant .empty sound_of_step h.reachable
  cases effect_of_step hstep with
  | quiet hq => cases hq
  | @uplink _ _ grid hgrid =>
    have hgrants : ((UplinkTrigger.decide s grid time outcomes).2.flatMap (·.grants)) =
        (UplinkTrigger.decision s grid outcomes).grants := List.append_nil _
    rw [hgrants]
    intro g hg
    exact h.mem_iff.1 <|
      UplinkTrigger.names_decision outcomes h.reachable.consistent hsound g hg

/-! ## Who comes and who goes -/

/-- A UE that comes, with a bearer on the channel. -/
theorem enroll (h : s.Serves policy config known lcid) (hr : ¬known r) (mode : TransmissionMode)
    (bearer : Bearer) (hbearer : bearer.lcid = lcid) (hlcid : lcid ≠ 0) :
    ∃ es s', s.replay policy [.configureUe r mode, .configureBearers r [bearer]] = .ok (es, s') ∧
      s'.Serves policy config (fun r' => r' = r ∨ known r') lcid := by
  -- The UE is not configured yet, as the scheduler keeps nothing of those that are not known.
  have hnew : r ∉ s.ues := fun hmem => hr (h.mem_iff.1 hmem)
  have hadd : s.step policy (.configureUe r mode) = .ok (addUe policy s r mode, _) :=
    configureUe_of_not_mem hnew h.grid h.control
  have hmem : r ∈ (addUe policy s r mode).ues := Table.mem_insert.2 (.inl rfl)
  have hequip : (addUe policy s r mode).step policy (.configureBearers r [bearer]) = .ok (_, _) :=
    step_of_accepted (.bearersAdded hmem h.control)
  have hdedicated : dedicated [bearer] = [bearer] := by simp [dedicated, hbearer, hlcid]
  refine ⟨_, _, replay_cons_eq_ok.2 ⟨_, _, _, hadd, replay_cons_eq_ok.2
    ⟨_, _, _, hequip, rfl, rfl⟩, rfl⟩, ?_⟩
  have hadded := h.reachable.step hadd
  have hwithin : (addUe policy s r mode).Within fun r' => r' = r ∨ known r' := by
    refine (h.within.imp fun _ => Or.inr).of_step h.reachable.consistent ?_ hadd
    rintro r' (hr' | ⟨reuse, hreuse, -⟩)
    · exact .inl (List.mem_singleton.1 hr')
    · cases hreuse
  refine ⟨⟨h.grid, h.control, h.data, ?_⟩, hadded.step hequip, ?_⟩
  · intro r' hr'
    simp only [refreshBearers, addBearers, addUe, hasBearer, hdedicated, Table.getElem?_modify,
      Table.getElem?_insert]
    split
    next heq => simp [hbearer]
    next hne => exact h.bearers r' (hr'.resolve_left hne)
  · refine hwithin.of_step hadded.consistent ?_ hequip
    rintro r' (hr' | ⟨reuse, hreuse, -⟩)
    · exact .inl (List.mem_singleton.1 hr')
    · cases hreuse

/-- A UE that goes. -/
theorem dismiss (h : s.Serves policy config known lcid) (hr : known r) :
    ∃ s' said, s.step policy (.releaseUe r) = .ok (s', said) ∧
      s'.Serves policy config (fun r' => r' ≠ r ∧ known r') lcid := by
  have hstep : s.step policy (.releaseUe r) = .ok (s.removeUe r, _) :=
    releaseUe_of_mem (h.mem_iff.2 hr) h.control
  refine ⟨_, _, hstep, ⟨h.grid, h.control, h.data, ?_⟩, h.reachable.step hstep,
    h.within.removeUe r⟩
  rintro r' ⟨hne, hr'⟩
  simpa [removeUe, hasBearer, Table.getElem?_erase, hne] using h.bearers r' hr'

/-- All UEs go, one after the other. -/
theorem dismiss_all (h : s.Serves policy config known lcid) {rs : List Rnti} (hrs : rs.Nodup)
    (hknown : ∀ r, known r ↔ r ∈ rs) :
    ∃ es s', s.replay policy (rs.map .releaseUe) = .ok (es, s') ∧
      s'.Serves policy config (fun _ => False) lcid := by
  induction rs generalizing s known with
  | nil =>
    obtain rfl : known = fun _ => False := funext fun r => by simpa using hknown r
    exact ⟨[], s, rfl, h⟩
  | cons r rs ih =>
    obtain ⟨hr, hrs⟩ := List.nodup_cons.1 hrs
    obtain ⟨s₁, said, hstep, hs₁⟩ := h.dismiss ((hknown r).2 List.mem_cons_self)
    -- Once the first UE has gone, those in service are the rest of the list.
    have hleft : ∀ r', r' ≠ r ∧ known r' ↔ r' ∈ rs := by
      intro r'
      rw [hknown, List.mem_cons]
      constructor
      · rintro ⟨hne, rfl | hmem⟩
        · exact absurd rfl hne
        · exact hmem
      · exact fun hmem => ⟨fun heq => hr (heq ▸ hmem), .inr hmem⟩
    obtain ⟨es, s', hes, hs'⟩ := ih hs₁ hrs hleft
    exact ⟨_, s', replay_cons_eq_ok.2 ⟨s₁, said, es, hstep, hes, rfl⟩, hs'⟩

/-- A cell in service for nobody holds nothing: its tables, buffers and maps have no entry left, and
its arena no slot in use. -/
theorem sizes_eq_zero (h : s.Serves policy config (fun _ => False) lcid) : s.sizes = .zero := by
  -- Nobody is in service, so everybody is absent, and a table without keys is empty.
  have habsent : ∀ r, s.Absent r := fun r =>
    (h.within.imp fun _ => False.elim).absent h.reachable.consistent
  have empty {α : Type} {t : Table Rnti α} (ht : ∀ r, r ∉ t) : t = ∅ :=
    Std.ExtTreeMap.eq_empty_iff_forall_not_mem.2 ht
  have hues := empty fun r => (habsent r).ues
  have hdownlink := empty fun r => (habsent r).downlink
  have huplink := empty fun r => (habsent r).uplink
  have hindex := empty fun r => (habsent r).index
  have hwideband := empty fun r => (habsent r).wideband
  have hsubband := empty fun r => (habsent r).subband
  have hsinr := empty fun r => (habsent r).sinr
  have hfeedback : s.downlink.feedback = [] :=
    List.eq_nil_iff_forall_not_mem.2 fun f hf => (habsent f.rnti).feedback f hf rfl
  have hpreambles : s.preambles = [] :=
    List.eq_nil_iff_forall_not_mem.2 fun p hp => h.within.preambles p hp
  -- The maps may still have places, but none of them is held by anyone.
  have hreserved := h.within.reserved.held_eq_zero
  have hhistory : sumBy (·.2.held) s.uplink.history = 0 :=
    sumBy_eq_zero fun past hpast => (h.within.history past hpast).held_eq_zero
  have hvalues {α : Type} : (∅ : Table Rnti α).values = [] := by simp [Table.values_eq_map]
  simp [sizes, TableSizes.zero, DownlinkHarq.size, DownlinkQuality.size, UplinkQuality.size,
    AgingTable.size, hues, hdownlink, huplink, hindex, hwideband, hsubband, hsinr, hfeedback,
    hpreambles, hreserved, hhistory, hvalues]

end Serves

end SchedulerState

end LteMac
