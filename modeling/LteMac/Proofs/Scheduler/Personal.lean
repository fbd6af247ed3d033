import LteMac.Proofs.Scheduler.Accepted
import LteMac.Proofs.Scheduler.Dossier

/-!
# Personal requests

Most requests are about single UEs. What such a request is answered depends on the setup of the cell
and on the dossiers of the UEs it names, and these are the only dossiers that it edits. The commons
change with a release only.

Both halves are statements about cells that agree on some UEs (`SchedulerState.AgreeOn`). In the
first one, two cells which agree on the UEs a request names are given that request: every check has
the same outcome in both, they say the same, and agree on as many UEs as before. In the second one,
one cell is compared with itself before and after the request, and agrees on everybody the request
does not name. Together they are all that is needed to swap two requests about different UEs.

A quality report is the one request that needs care, since it is taken in by several tables, by the
reuse policy and by the rank adaptation. The fold over a list of reports is therefore split into
what the tables learn from one report (`note`) and what the modes make of it, so that each report
can be followed on its own.

* `SchedulerState.AgreeOn.answered`: cells that agree on the UEs it names answer it alike;
* `SchedulerState.agreeOn_of_personal`: the others do not notice;
* `SchedulerState.commons_of_personal`: what becomes of the commons.
-/

namespace LteMac

/-- Whether a request is about the UEs it names and no one else. The others concern the whole cell,
run a trigger, or bring feedback and measurements that only a trigger's own memory can tell the
owner of. -/
def Request.isPersonal : Request → Bool
  | .configureUe .. | .reconfigureUe .. | .configureBearers .. | .reconfigureBearers _
  | .releaseBearers .. | .releaseUe _ | .queue .. | .controlElements .. | .quality _
  | .schedulingRequests _ | .uplinkControls _ | .sinr _ .sounding _ _ => true
  | _ => false

/-- What an accepted personal request leaves of the commons. -/
def Request.leaves : Request → Commons → Commons
  | .releaseUe r, c => c.without r
  | _, c => c

variable {Record : Type} {policy : Policy Record} {s s' t : SchedulerState Record}
  {known : Rnti → Prop} {r : Rnti} {q : Request} {said : List Indication}

/-- Two cells answer alike, and if the request is accepted, their next states are related. A refusal
has the same cause in both. -/
inductive Answered (R : SchedulerState Record → SchedulerState Record → Prop) :
    Except SchedulerError (Outcome Record) → Except SchedulerError (Outcome Record) → Prop
  /-- Both refuse, for the same cause. -/
  | refused {cause : SchedulerError} : Answered R (.error cause) (.error cause)
  /-- Both accept, and say the same. -/
  | accepted {s t : SchedulerState Record} {said : List Indication} (h : R s t) :
      Answered R (.ok (s, said)) (.ok (t, said))

namespace Answered

variable {R : SchedulerState Record → SchedulerState Record → Prop}
  {x y : Except SchedulerError (Outcome Record)}

/-- Outcomes that say the same and leave related states. -/
theorem ok {out out' : Outcome Record} (h : R out.1 out'.1) (hsaid : out.2 = out'.2) :
    Answered R (.ok out) (.ok out') := by
  obtain ⟨s, said⟩ := out
  obtain ⟨t, said'⟩ := out'
  obtain rfl : said = said' := hsaid
  exact .accepted h

/-- A check with the same outcome in both cells. -/
theorem check {α : Type} {c c' : Except SchedulerError α}
    {f g : α → Except SchedulerError (Outcome Record)} (h : c = c')
    (hrest : ∀ a, c = .ok a → Answered R (f a) (g a)) : Answered R (c >>= f) (c' >>= g) := by
  subst h
  cases hc : c with
  | error cause => exact .refused
  | ok a => exact hrest a hc

/-- A guard with the same outcome in both cells. -/
theorem guard {b b' : Bool} {cause : SchedulerError}
    {f g : Unit → Except SchedulerError (Outcome Record)} (h : b = b')
    (hrest : Answered R (f ()) (g ())) :
    Answered R (if b then throw cause >>= f else f ())
      (if b' then throw cause >>= g else g ()) := by
  subst h
  cases b with
  | false => exact hrest
  | true => exact .refused

end Answered

/-- A check of all entries of a list is the same for checks that are the same for each of them. -/
theorem forM_congr {ε α : Type} {xs : List α} {check check' : α → Except ε Unit}
    (h : ∀ a ∈ xs, check a = check' a) : xs.forM check = xs.forM check' := by
  induction xs with
  | nil => rfl
  | cons a as ih =>
    obtain ⟨ha, has⟩ := List.forall_mem_cons.1 h
    rw [List.forM, List.forM, ha, ih has]

namespace SchedulerState

/-- Takes in one downlink quality report, except for the rank it tells. -/
def note (s : SchedulerState Record) (report : CqiReport) : SchedulerState Record :=
  { s with
    downlink := { s.downlink with quality := storeQuality s.downlink.quality report }
    reuse := s.reuse.learn report }

/-- Reports taken in one after the other are those of the tables and of the reuse policy, each taken
in on its own. -/
theorem foldl_note (reports : List CqiReport) (s : SchedulerState Record) :
    reports.foldl note s =
      { s with
        downlink := { s.downlink with quality := reports.foldl storeQuality s.downlink.quality }
        reuse := s.reuse.learnAll reports } := by
  induction reports generalizing s with
  | nil => rfl
  | cons report rest ih => exact ih (s.note report)

/-- What the cell learns from reports, and then what its modes make of them. -/
theorem learned_eq (s : SchedulerState Record) (reports : List CqiReport) :
    s.learned reports =
      if s.config.rankAdaptation then reports.foldl adaptMode (reports.foldl note s, [])
      else (reports.foldl note s, []) := by
  rw [foldl_note]
  rfl

/-- Reports are no part of the setup. -/
theorem setup_note (s : SchedulerState Record) (report : CqiReport) :
    (s.note report).setup = s.setup := by
  have hthresholds : ∀ q : DownlinkQuality,
      (storeQuality q report).wideband.threshold = q.wideband.threshold ∧
        (storeQuality q report).subband.threshold = q.subband.threshold := by
    intro q
    rw [storeQuality]
    split
    · cases report.wideband.head? <;> exact ⟨rfl, rfl⟩
    · exact ⟨rfl, rfl⟩
  simp only [setup, note, ReusePolicy.unlearned_learn, hthresholds]

/-- What a report changes in the entries of the UE it is about. -/
theorem storeQuality_congr {q q' : DownlinkQuality}
    (hthreshold : q.wideband.threshold = q'.wideband.threshold)
    (hthreshold' : q.subband.threshold = q'.subband.threshold)
    (hwideband : q.wideband.entries[r]? = q'.wideband.entries[r]?)
    (hsubband : q.subband.entries[r]? = q'.subband.entries[r]?) (report : CqiReport) :
    (storeQuality q report).wideband.entries[r]? = (storeQuality q' report).wideband.entries[r]? ∧
      (storeQuality q report).subband.entries[r]? =
        (storeQuality q' report).subband.entries[r]? := by
  rw [storeQuality, storeQuality]
  split
  · cases report.wideband.head? with
    | none => exact ⟨hwideband, hsubband⟩
    | some cqi =>
      simp only [Option.elim_some, DownlinkQuality.reportWideband, AgingTable.report,
        Table.getElem?_insert, hthreshold, hwideband]
      exact ⟨trivial, hsubband⟩
  · simp only [DownlinkQuality.reportSubband, AgingTable.report, Table.getElem?_insert, hthreshold',
      hsubband]
    exact ⟨hwideband, trivial⟩

/-- A report changes no entry of another UE. -/
theorem storeQuality_of_ne {report : CqiReport} (hne : r ≠ report.rnti) (q : DownlinkQuality) :
    (storeQuality q report).wideband.entries[r]? = q.wideband.entries[r]? ∧
      (storeQuality q report).subband.entries[r]? = q.subband.entries[r]? := by
  rw [storeQuality]
  split
  · cases report.wideband.head? with
    | none => exact ⟨rfl, rfl⟩
    | some cqi =>
      simp only [Option.elim_some, DownlinkQuality.reportWideband, AgingTable.report,
        Table.getElem?_insert, if_neg hne, and_self]
  · simp only [DownlinkQuality.reportSubband, AgingTable.report, Table.getElem?_insert, if_neg hne,
      and_self]

/-- Nobody but the UE it is about notices a report. -/
theorem agreeOn_note (hs : s.downlink.harq.Separate) (report : CqiReport) :
    AgreeOn (· ≠ report.rnti) s (s.note report) where
  setup := (setup_note s report).symm
  dossier r hr := by
    obtain ⟨hwideband, hsubband⟩ := storeQuality_of_ne hr s.downlink.quality
    simp only [dossier, note, hwideband, hsubband, ReusePolicy.memory_learn hr.symm]
  separate := hs
  separate' := hs

/-! ## Cells that agree

Cells that agree on a UE cannot be told apart by a check about it, and what a request does to its
dossier is the same in both.
-/

namespace AgreeOn

variable (h : AgreeOn known s t)

include h

theorem requireGrid : s.requireGrid = t.requireGrid := by
  simp only [SchedulerState.requireGrid, show s.grid = t.grid from congrArg Setup.grid h.setup]

theorem requireControl : s.requireControl = t.requireControl := by
  simp only [SchedulerState.requireControl,
    show s.controlConnected = t.controlConnected from congrArg Setup.controlConnected h.setup]

theorem requireData : s.requireData = t.requireData := by
  simp only [SchedulerState.requireData,
    show s.dataConnected = t.dataConnected from congrArg Setup.dataConnected h.setup]

theorem contains (hr : known r) : s.ues.contains r = t.ues.contains r := by
  have hue : s.ues[r]? = t.ues[r]? := congrArg Dossier.ue (h.dossier r hr)
  rw [Std.ExtTreeMap.contains_eq_isSome_getElem?, Std.ExtTreeMap.contains_eq_isSome_getElem?, hue]

theorem requireUe (hr : known r) : s.requireUe r = t.requireUe r := by
  simp only [SchedulerState.requireUe, h.contains hr]

theorem hasBearer (hr : known r) (lcid : Lcid) : s.hasBearer r lcid = t.hasBearer r lcid := by
  have hue : s.ues[r]? = t.ues[r]? := congrArg Dossier.ue (h.dossier r hr)
  simp only [SchedulerState.hasBearer, hue]

theorem requireUes {rntis : List Rnti} (hrntis : ∀ r ∈ rntis, known r) :
    s.requireUes rntis = t.requireUes rntis :=
  forM_congr fun r hr => h.requireUe (hrntis r hr)

theorem note (report : CqiReport) : AgreeOn known (s.note report) (t.note report) where
  setup := by rw [setup_note, setup_note, h.setup]
  dossier r hr := by
    have hdossier := h.dossier r hr
    simp only [SchedulerState.dossier, Dossier.mk.injEq] at hdossier
    obtain ⟨hue, hdownlink, huplink, hentity, hwideband, hsubband, hsinr, hmemory⟩ := hdossier
    obtain ⟨hwideband, hsubband⟩ := storeQuality_congr
      (congrArg Setup.widebandThreshold h.setup) (congrArg Setup.subbandThreshold h.setup)
      hwideband hsubband report
    have hmemory := ReusePolicy.memory_learn_congr (congrArg Setup.reuse h.setup) hmemory report
    simp only [SchedulerState.dossier, SchedulerState.note, hue, hdownlink, huplink, hentity,
      hwideband, hsubband, hsinr, hmemory]
  separate := h.separate
  separate' := h.separate'

/-- Modes adapt alike, and the same changes are announced. -/
theorem adaptMode (said : List Indication) {report : CqiReport} (hr : known report.rnti) :
    AgreeOn known (adaptMode (s, said) report).1 (adaptMode (t, said) report).1 ∧
      (adaptMode (s, said) report).2 = (adaptMode (t, said) report).2 := by
  have hue : s.ues[report.rnti]? = t.ues[report.rnti]? :=
    congrArg Dossier.ue (h.dossier report.rnti hr)
  have hcontrol : s.controlConnected = t.controlConnected :=
    congrArg Setup.controlConnected h.setup
  simp only [SchedulerState.adaptMode, hue, hcontrol]
  cases t.ues[report.rnti]? with
  | none => exact ⟨h, rfl⟩
  | some u =>
    by_cases hmode : u.mode.adapt report.rank = u.mode
    · simp only [if_pos hmode]
      exact ⟨h, trivial⟩
    · simp only [if_neg hmode]
      exact ⟨h.edit (edits_modifyUe _ h.separate _) (edits_modifyUe _ h.separate' _), trivial⟩

/-- Modes adapt alike to a list of reports. -/
theorem foldl_adaptMode {reports : List CqiReport}
    (hreports : ∀ report ∈ reports, known report.rnti) {said : List Indication} :
    AgreeOn known (reports.foldl SchedulerState.adaptMode (s, said)).1
        (reports.foldl SchedulerState.adaptMode (t, said)).1 ∧
      (reports.foldl SchedulerState.adaptMode (s, said)).2 =
        (reports.foldl SchedulerState.adaptMode (t, said)).2 := by
  induction reports generalizing s t said with
  | nil => exact ⟨h, rfl⟩
  | cons report rest ih =>
    obtain ⟨hreport, hrest⟩ := List.forall_mem_cons.1 hreports
    obtain ⟨hnext, hsaid⟩ := h.adaptMode said hreport
    have hpair : SchedulerState.adaptMode (t, said) report =
        ((SchedulerState.adaptMode (t, said) report).1,
          (SchedulerState.adaptMode (s, said) report).2) := by rw [hsaid]
    rw [List.foldl_cons, List.foldl_cons, hpair]
    exact ih hnext hrest

omit h in
/-- A fold keeps the agreement if each of its steps does. -/
theorem foldl {α : Type} {op : SchedulerState Record → α → SchedulerState Record} {xs : List α}
    (hop : ∀ s t, AgreeOn known s t → ∀ a ∈ xs, AgreeOn known (op s a) (op t a))
    (h : AgreeOn known s t) : AgreeOn known (xs.foldl op s) (xs.foldl op t) := by
  induction xs generalizing s t with
  | nil => exact h
  | cons a as ih =>
    exact ih (fun s t hst b hb => hop s t hst b (List.mem_cons_of_mem a hb))
      (hop s t h a (List.mem_cons_self ..))

/-- Cells learn the same from reports, and announce the same changes of modes. -/
theorem learned {reports : List CqiReport} (hreports : ∀ report ∈ reports, known report.rnti) :
    AgreeOn known (s.learned reports).1 (t.learned reports).1 ∧
      (s.learned reports).2 = (t.learned reports).2 := by
  have hnote : AgreeOn known (reports.foldl SchedulerState.note s)
      (reports.foldl SchedulerState.note t) := h.foldl fun _ _ hst report _ => hst.note report
  have hadapt : s.config.rankAdaptation = t.config.rankAdaptation :=
    congrArg (·.config.rankAdaptation) h.setup
  rw [learned_eq, learned_eq, hadapt]
  split
  · exact hnote.foldl_adaptMode hreports
  · exact ⟨hnote, rfl⟩

theorem refreshBearers (r : Rnti) :
    AgreeOn known (refreshBearers policy s r) (refreshBearers policy t r) :=
  h.edit (edits_refreshBearers r h.separate) (edits_refreshBearers r h.separate')

/-- A personal request is answered alike where cells agree on the UEs it names. -/
theorem answered (hq : q.isPersonal = true) (hknown : ∀ r ∈ q.rntis, known r) :
    Answered (AgreeOn known) (s.step policy q) (t.step policy q) := by
  -- The checks read the setup and the dossiers of named UEs, and what is written is an edit of one
  -- of these dossiers, or one edit after the other.
  have hdiscard : discard s.requireGrid = discard t.requireGrid := by rw [h.requireGrid]
  have hnamed : ∀ r, q.rntis = [r] → known r :=
    fun r hr => hknown r (hr ▸ List.mem_singleton_self r)
  cases q with
  | configureUe r mode =>
    have hr := hnamed r rfl
    have htti : s.downlink.tti = t.downlink.tti := congrArg Setup.tti h.setup
    refine .check hdiscard fun _ _ => .check h.requireControl fun _ _ =>
      .guard (h.contains hr) (.accepted ?_)
    exact h.edit (edits_addUe r h.separate mode) (htti ▸ edits_addUe r h.separate' mode)
  | reconfigureUe r mode =>
    refine .check hdiscard fun _ _ => .check h.requireControl fun _ _ =>
      .check (h.requireUe (hnamed r rfl)) fun _ _ => .accepted ?_
    exact h.edit (edits_modifyUe r h.separate _) (edits_modifyUe r h.separate' _)
  | configureBearers r bearers =>
    refine .check (h.requireUe (hnamed r rfl)) fun _ _ => .check h.requireControl fun _ _ =>
      .accepted (refreshBearers ?_ r)
    exact h.edit (edits_addBearers r h.separate _) (edits_addBearers r h.separate' _)
  | reconfigureBearers r =>
    exact .check (h.requireUe (hnamed r rfl)) fun _ _ => .check h.requireControl fun _ _ => .refused
  | releaseBearers r lcids =>
    have hr := hnamed r rfl
    have hbearers : lcids.find? (!s.hasBearer r ·) = lcids.find? (!t.hasBearer r ·) := by
      simp only [h.hasBearer hr]
    refine .check (h.requireUe hr) fun _ _ => .check h.requireControl fun _ _ => ?_
    rw [hbearers]
    cases lcids.find? (!t.hasBearer r ·) with
    | some lcid => exact .refused
    | none =>
      refine .accepted (refreshBearers ?_ r)
      exact h.edit (edits_dropBearers r h.separate lcids) (edits_dropBearers r h.separate' lcids)
  | releaseUe r =>
    refine .check (h.requireUe (hnamed r rfl)) fun _ _ => .check h.requireControl fun _ _ =>
      .accepted ?_
    exact h.edit (edits_removeUe r h.separate) (edits_removeUe r h.separate')
  | queue r lcid queue =>
    have hr := hnamed r rfl
    refine .check (h.requireUe hr) fun _ _ => .guard ?_ (.accepted ?_)
    · rw [h.hasBearer hr]
    · exact h.edit (edits_modifyDownlinkUe r h.separate _) (edits_modifyDownlinkUe r h.separate' _)
  | controlElements r elements =>
    refine .check (h.requireUe (hnamed r rfl)) fun _ _ => .accepted ?_
    exact h.edit (edits_modifyDownlinkUe r h.separate _) (edits_modifyDownlinkUe r h.separate' _)
  | quality reports =>
    refine .check hdiscard fun _ _ => .check (h.requireUes hknown) fun _ _ => ?_
    obtain ⟨hlearned, hsaid⟩ := h.learned (List.forall_mem_map.1 hknown)
    have hanswer : Answered (AgreeOn known) (.ok (s.learned reports)) (.ok (t.learned reports)) :=
      .ok hlearned hsaid
    exact hanswer
  | schedulingRequests rntis =>
    refine .check (h.requireUes hknown) fun _ _ => .accepted (h.foldl fun s t hst r _ => ?_)
    exact hst.edit (edits_modifyUplinkUe r hst.separate _) (edits_modifyUplinkUe r hst.separate' _)
  | uplinkControls controls =>
    refine .check (h.requireUes hknown) fun _ _ => .accepted (h.foldl fun s t hst control _ => ?_)
    rw [takeControl, takeControl]
    split
    · exact hst.edit (edits_modifyUplinkUe _ hst.separate _)
        (edits_modifyUplinkUe _ hst.separate' _)
    · exact hst
    · exact hst
  | sinr time source codes rnti =>
    cases source with
    | data => cases hq
    | sounding =>
      have hsource : s.config.sinrSource = t.config.sinrSource :=
        congrArg (·.config.sinrSource) h.setup
      refine .check hdiscard fun _ _ => ?_
      rw [hsource]
      by_cases hignored : SinrSource.sounding ≠ t.config.sinrSource
      · rw [if_pos hignored, if_pos hignored]
        exact .accepted h
      · rw [if_neg hignored, if_neg hignored]
        cases rnti with
        | none => exact .refused
        | some r =>
          have hr := hnamed r rfl
          refine .check (h.requireUe hr) fun _ _ => .accepted ?_
          have hs := edits_replace r h.separate (codes.map Sinr.decode)
          rw [h.setup] at hs
          exact h.edit hs (edits_replace r h.separate' (codes.map Sinr.decode))
  | _ => cases hq

end AgreeOn

/-! ## Everybody else

A request that edits the dossiers of some UEs is not noticed by anyone else. A list of edits is
followed one by one, and by its end nobody has noticed it but the UEs on the list.
-/

/-- Whom no step of a fold edits does not notice the fold. -/
theorem agreeOn_foldl {α β : Type} (cell : β → SchedulerState Record) (name : α → Rnti)
    {op : β → α → β} {xs : List α}
    (hop : ∀ b, (cell b).downlink.harq.Separate → ∀ a ∈ xs,
      AgreeOn (· ≠ name a) (cell b) (cell (op b a)))
    {b : β} (hb : (cell b).downlink.harq.Separate) :
    AgreeOn (· ∉ xs.map name) (cell b) (cell (xs.foldl op b)) := by
  induction xs generalizing b with
  | nil => exact .refl hb
  | cons a as ih =>
    have hfirst := hop b hb a (List.mem_cons_self ..)
    have hrest := ih (fun b hb c hc => hop b hb c (List.mem_cons_of_mem a hc)) hfirst.separate'
    rw [List.map_cons]
    refine (hfirst.mono fun r hr => ?_).trans (hrest.mono fun r hr => ?_)
    · exact (List.ne_and_not_mem_of_not_mem_cons hr).1
    · exact (List.ne_and_not_mem_of_not_mem_cons hr).2

/-- Nobody else notices a mode that changes. -/
theorem agreeOn_adaptMode {out : Outcome Record} (hs : out.1.downlink.harq.Separate)
    (report : CqiReport) : AgreeOn (· ≠ report.rnti) out.1 (adaptMode out report).1 := by
  obtain ⟨s, said⟩ := out
  simp only [adaptMode]
  split
  · exact .refl hs
  · split
    · exact .refl hs
    · exact (edits_modifyUe report.rnti hs _).agreeOn hs

/-- Nobody notices reports but the UEs they are about. -/
theorem agreeOn_learned (hs : s.downlink.harq.Separate) (reports : List CqiReport) :
    AgreeOn (· ∉ reports.map (·.rnti)) s (s.learned reports).1 := by
  have hnote : AgreeOn (· ∉ reports.map (·.rnti)) s (reports.foldl note s) :=
    agreeOn_foldl id (·.rnti) (fun s hs report _ => agreeOn_note hs report) hs
  rw [learned_eq]
  split
  · refine hnote.trans ?_
    exact agreeOn_foldl (fun out : Outcome Record => out.1) (·.rnti)
      (fun _ h report _ => agreeOn_adaptMode h report) (b := (_, [])) hnote.separate'
  · exact hnote

theorem agreeOn_refreshBearers (hs : s.downlink.harq.Separate) (r : Rnti) :
    AgreeOn (· ≠ r) s (refreshBearers policy s r) := (edits_refreshBearers r hs).agreeOn hs

theorem agreeOn_takeControl (hs : s.downlink.harq.Separate) (control : Rnti × UplinkControl) :
    AgreeOn (· ≠ control.1) s (s.takeControl control) := by
  rw [takeControl]
  split
  · exact (edits_modifyUplinkUe control.1 hs _).agreeOn hs
  · exact .refl hs
  · exact .refl hs

/-- Whom an accepted personal request does not name does not notice it. -/
theorem agreeOn_of_personal (hs : s.downlink.harq.Separate) (hq : q.isPersonal = true)
    (hstep : s.step policy q = .ok (s', said)) : AgreeOn (· ∉ q.rntis) s s' := by
  have hother : ∀ {r : Rnti}, AgreeOn (· ≠ r) s s' → AgreeOn (· ∉ [r]) s s' :=
    fun h => h.mono fun _ hr => List.ne_of_not_mem_cons hr
  cases accepted_of_step hstep with
  | added => exact hother ((edits_addUe _ hs _).agreeOn hs)
  | reconfigured => exact hother ((edits_modifyUe _ hs _).agreeOn hs)
  | @bearersAdded r bearers =>
    have hadd := (edits_addBearers r hs (dedicated bearers)).agreeOn hs
    exact hother (hadd.trans (agreeOn_refreshBearers hadd.separate' r))
  | @bearersDropped r lcids =>
    have hdrop := (edits_dropBearers r hs lcids).agreeOn hs
    exact hother (hdrop.trans (agreeOn_refreshBearers hdrop.separate' r))
  | removed => exact hother ((edits_removeUe _ hs).agreeOn hs)
  | queued | elementsAdded => exact hother ((edits_modifyDownlinkUe _ hs _).agreeOn hs)
  | qualityTaken => exact agreeOn_learned hs _
  | requested =>
    refine AgreeOn.mono (agreeOn_foldl id id (fun s hs r _ => ?_) hs) fun r hr => ?_
    · exact (edits_modifyUplinkUe r hs _).agreeOn hs
    · rwa [List.map_id]
  | controlsTaken =>
    exact agreeOn_foldl id (·.1) (fun s hs control _ => agreeOn_takeControl hs control) hs
  | sinrIgnored => exact .refl hs
  | sounded => exact hother ((edits_replace _ hs _).agreeOn hs)
  | _ => cases hq

/-! ## The commons

What all UEs share. A personal request writes dossiers and tables, and none of the commons; a
release alone takes its UE out of them.
-/

/-- Reports leave the commons alone. -/
theorem commons_learned (s : SchedulerState Record) (reports : List CqiReport) :
    (s.learned reports).1.commons = s.commons := by
  have hnote : (reports.foldl note s).commons = s.commons := by
    rw [foldl_note]
    rfl
  rw [learned_eq]
  split
  · refine List.foldlRecOn (motive := fun out : Outcome Record => out.1.commons = s.commons) _ _
      hnote fun out hout report _ => ?_
    obtain ⟨s', said⟩ := out
    simp only [adaptMode]
    split
    · exact hout
    · split <;> exact hout
  · exact hnote

/-- Operations that only write records of the uplink, one after the other. -/
theorem exists_foldl_uplink {α : Type} {op : SchedulerState Record → α → SchedulerState Record}
    (hop : ∀ s a, ∃ ues, op s a = { s with uplink := { s.uplink with ues } }) (xs : List α)
    (s : SchedulerState Record) :
    ∃ ues, xs.foldl op s = { s with uplink := { s.uplink with ues } } := by
  induction xs generalizing s with
  | nil => exact ⟨_, rfl⟩
  | cons a as ih =>
    obtain ⟨ues, hfirst⟩ := hop s a
    obtain ⟨ues', hrest⟩ := ih (op s a)
    exact ⟨ues', by rw [List.foldl_cons, hrest, hfirst]⟩

/-- Scheduling requests write records of the uplink only. -/
theorem exists_foldl_request (rntis : List Rnti) (s : SchedulerState Record) :
    ∃ ues, rntis.foldl (fun s r => s.modifyUplinkUe r fun u => { u with requested := true }) s =
      { s with uplink := { s.uplink with ues } } :=
  exists_foldl_uplink (fun _ _ => ⟨_, rfl⟩) rntis s

/-- Control elements of the uplink write records of the uplink only. -/
theorem exists_foldl_takeControl (controls : List (Rnti × UplinkControl))
    (s : SchedulerState Record) :
    ∃ ues, controls.foldl takeControl s = { s with uplink := { s.uplink with ues } } := by
  refine exists_foldl_uplink (fun s control => ?_) controls s
  rw [takeControl]
  split <;> exact ⟨_, rfl⟩

/-- An accepted personal request leaves the commons alone, unless it is a release. -/
theorem commons_of_personal (hq : q.isPersonal = true)
    (hstep : s.step policy q = .ok (s', said)) : s'.commons = q.leaves s.commons := by
  cases accepted_of_step hstep with
  | qualityTaken => exact commons_learned s _
  | @requested rntis =>
    obtain ⟨ues, hues⟩ := exists_foldl_request rntis s
    rw [hues]
    rfl
  | @controlsTaken controls =>
    obtain ⟨ues, hues⟩ := exists_foldl_takeControl controls s
    rw [hues]
    rfl
  | added | reconfigured | bearersAdded | bearersDropped | removed | queued | elementsAdded
  | sinrIgnored | sounded => rfl
  | _ => cases hq

end SchedulerState

end LteMac
