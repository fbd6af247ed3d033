import LteMac.Policy.Choice
import LteMac.Proofs.Radio.Table
import LteMac.Proofs.Scheduler.Consistency
import LteMac.Proofs.Scheduler.Personal
import Mathlib.Data.List.Destutter

/-!
# Modes on both sides

The transmission mode of a UE is set from two sides: the MAC configures it, and a scheduler that
adapts modes switches it when a quality report tells of another rank. A switch is indicated to the
MAC, which can therefore keep a table of modes of its own (`mirrored`), from the requests of it that
were accepted and the switches it was told.

One request may bring many reports of one UE, each with a rank of its own. The scheduler goes
through them in their order, so the modes it takes the UE through make a trail (`Request.trail`);
and it indicates a switch wherever two modes on the trail that follow each other differ. What is
said is thus the trail without its repetitions and without its beginning, which is where the UE was
before. That the last mode announced is the mode on record at the end, and that no switch is
announced twice or left out, is all contained in this.

A switch can only be indicated if somebody listens. As there are no UEs before that (`Attended`),
none is lost.

* `SchedulerState.adapted_adaptMode`: what one report does, to the mode of the UE and to what is
  said;
* `Run.modes_mirrored`: along a run, the table of the MAC is the one of the scheduler, and every
  switch is indicated once.
-/

namespace LteMac

variable {Record : Type}

/-! ## The table of the MAC -/

/-- The modes the scheduler has on record. -/
def SchedulerState.modes (s : SchedulerState Record) : Table Rnti TransmissionMode :=
  s.ues.map fun _ u => u.mode

/-- The switch an indication tells of. -/
def Indication.switch? : Indication → Option (Rnti × TransmissionMode)
  | .modeChanged r mode => some (r, mode)
  | _ => none

/-- The switches that are indicated. -/
def switches (said : List Indication) : List (Rnti × TransmissionMode) := said.filterMap (·.switch?)

/-- What the MAC notes of a switch, if it knows the UE. -/
def noteSwitch (modes : Table Rnti TransmissionMode) (switch : Rnti × TransmissionMode) :
    Table Rnti TransmissionMode :=
  modes.modify switch.1 fun _ => switch.2

/-- What the MAC notes of a request of its own that is accepted. -/
def Request.noteMode (modes : Table Rnti TransmissionMode) :
    Request → Table Rnti TransmissionMode
  | .configureUe r mode | .reconfigureUe r mode => modes.insert r mode
  | .releaseUe r => modes.erase r
  | _ => modes

/-- What the MAC notes of an event. -/
def Event.noteMode (modes : Table Rnti TransmissionMode) (e : Event Record) :
    Table Rnti TransmissionMode :=
  (switches e.said).foldl noteSwitch (e.request.noteMode modes)

/-- The modes the MAC has on record. -/
def mirrored (es : List (Event Record)) : Table Rnti TransmissionMode := es.foldl Event.noteMode ∅

/-! ## The switches of a UE -/

/-- The modes that are indicated for a UE, in their order. -/
def announced (r : Rnti) (said : List Indication) : List TransmissionMode :=
  ((switches said).filter (·.1 = r)).map (·.2)

/-- The ranks that are reported of a UE, in their order. -/
def ranks (r : Rnti) (reports : List CqiReport) : List Nat :=
  (reports.filter (·.rnti = r)).map (·.rank)

/-- Whether the MAC sets or drops the mode of a UE itself. -/
def Request.setsMode (r : Rnti) : Request → Bool
  | .configureUe r' _ | .reconfigureUe r' _ | .releaseUe r' => r' = r
  | _ => false

/-- The modes the scheduler takes a UE through, from the one it is in to the one it ends up in: a
scheduler that adapts modes looks at every rank that is reported of the UE. -/
def Request.trail (adapts : Bool) (r : Rnti) (mode : TransmissionMode) :
    Request → List TransmissionMode
  | .quality reports =>
    if adapts then (ranks r reports).scanl TransmissionMode.adapt mode else [mode]
  | _ => [mode]

/-- In an event, what happens to the modes is what is said about them. -/
structure Event.TellsModes (adapts : Bool) (e : Event Record) : Prop where
  /-- Of the modes a UE goes through, those it switches to are indicated, once each. -/
  changes : ∀ (r : Rnti) mode, e.before.modes[r]? = some mode →
    mode :: announced r e.said = (e.request.trail adapts r mode).destutter (· ≠ ·)
  /-- It stays in the last of them, unless the MAC says otherwise. -/
  stays : ∀ (r : Rnti) mode, e.before.modes[r]? = some mode → e.request.setsMode r = false →
    e.after.modes[r]? = (e.request.trail adapts r mode).getLast?
  /-- Nothing is said of the mode of a UE that is not configured. -/
  unknown : ∀ r : Rnti, e.before.modes[r]? = none → announced r e.said = []
  /-- A scheduler switches between transmit diversity and open-loop multiplexing only. -/
  fixed : ∀ (r : Rnti) mode, e.before.modes[r]? = some mode → mode ≠ .transmitDiversity →
    mode ≠ .openLoopSpatialMux → announced r e.said = [] ∧
      (e.request.setsMode r = false → e.after.modes[r]? = some mode)

variable {r : Rnti} {mode : TransmissionMode} {q : Request} {said : List Indication}

/-- What is announced in turn. -/
theorem announced_append (said said' : List Indication) :
    announced r (said ++ said') = announced r said ++ announced r said' := by
  simp only [announced, switches, List.filterMap_append, List.filter_append, List.map_append]

/-- Without switches nothing is announced. -/
theorem announced_of_switches (h : switches said = []) : announced r said = [] := by
  rw [announced, h]
  rfl

/-- A request that does not set the mode of a UE leaves it on the MAC's record. -/
theorem Request.getElem?_noteMode (hq : q.setsMode r = false)
    (modes : Table Rnti TransmissionMode) : (q.noteMode modes)[r]? = modes[r]? := by
  cases q with
  | configureUe r' mode | reconfigureUe r' mode =>
    have hne : r ≠ r' := fun heq => of_decide_eq_false hq heq.symm
    rw [noteMode, Table.getElem?_insert, if_neg hne]
  | releaseUe r' =>
    have hne : r ≠ r' := fun heq => of_decide_eq_false hq heq.symm
    rw [noteMode, Table.getElem?_erase, if_neg hne]
  | _ => rfl

namespace TransmissionMode

/-- Other modes do not adapt to any rank. -/
theorem adapt_of_fixed (hdiversity : mode ≠ .transmitDiversity)
    (hopen : mode ≠ .openLoopSpatialMux) (rank : Nat) : mode.adapt rank = mode := by
  cases mode <;> first | rfl | contradiction

/-- A mode that does not adapt is the only one on its trail. -/
theorem eq_of_mem_scanl (h : ∀ rank, mode.adapt rank = mode) {ranks : List Nat}
    {mode' : TransmissionMode} (hmem : mode' ∈ ranks.scanl adapt mode) : mode' = mode := by
  induction ranks with
  | nil => exact List.mem_singleton.1 hmem
  | cons rank ranks ih =>
    rw [List.scanl_cons, h] at hmem
    exact (List.mem_cons.1 hmem).elim id ih

/-- A rank that changes nothing leaves no trace among the switches, any other one leaves one. -/
theorem destutter_scanl (mode : TransmissionMode) (rank : Nat) (ranks : List Nat) :
    ((rank :: ranks).scanl adapt mode).destutter (· ≠ ·) =
      (if mode.adapt rank = mode then [] else [mode]) ++
        (ranks.scanl adapt (mode.adapt rank)).destutter (· ≠ ·) := by
  obtain ⟨rest, hrest⟩ : ∃ rest, ranks.scanl adapt (mode.adapt rank) = mode.adapt rank :: rest := by
    cases ranks with
    | nil => exact ⟨[], rfl⟩
    | cons rank' ranks => exact ⟨_, List.scanl_cons⟩
  rw [List.scanl_cons, hrest, List.destutter_cons_cons, List.destutter_cons']
  by_cases hmode : mode.adapt rank = mode
  · rw [if_pos hmode, hmode, if_neg (not_not.2 rfl)]
    rfl
  · rw [if_neg hmode, if_pos (Ne.symm hmode)]
    rfl

end TransmissionMode

/-- A UE in a mode that does not adapt stays in it. -/
theorem Request.eq_of_mem_trail {adapts : Bool} {mode' : TransmissionMode}
    (h : ∀ rank, mode.adapt rank = mode) (hmem : mode' ∈ q.trail adapts r mode) : mode' = mode := by
  cases q with
  | quality reports =>
    rw [trail] at hmem
    split at hmem
    · exact TransmissionMode.eq_of_mem_scanl h hmem
    · exact List.mem_singleton.1 hmem
  | _ => exact List.mem_singleton.1 hmem

/-- A trail on which there is one mode only has no switches, and ends where it begins. -/
theorem constant_trail {trail modes : List TransmissionMode}
    (htrail : ∀ mode' ∈ trail, mode' = mode)
    (h : mode :: modes = trail.destutter (· ≠ ·)) : modes = [] ∧ trail.getLast? = some mode := by
  have hsub : (mode :: modes).Sublist trail := h ▸ trail.destutter_sublist (· ≠ ·)
  have hchain : (mode :: modes).IsChain (· ≠ ·) := h ▸ trail.isChain_destutter (· ≠ ·)
  constructor
  · cases modes with
    | nil => rfl
    | cons mode' rest =>
      have heq : mode' = mode := htrail mode' (hsub.subset (by simp))
      exact absurd heq.symm (List.isChain_cons_cons.1 hchain).1
  · obtain ⟨mode', hlast⟩ : ∃ mode', trail.getLast? = some mode' :=
      ⟨_, List.getLast?_eq_some_getLast (List.ne_nil_of_mem (hsub.subset (List.mem_cons_self ..)))⟩
    rw [hlast, htrail mode' (List.mem_of_getLast? hlast)]

namespace SchedulerState

variable {policy : Policy Record} {config : SchedulerConfig} {s s' : SchedulerState Record}
  {out out' : Outcome Record} {report : CqiReport} {reports : List CqiReport}

/-- To set a mode is to note it. -/
theorem modes_setMode (s : SchedulerState Record) (r : Rnti) (mode : TransmissionMode) :
    (s.setMode r mode).modes = noteSwitch s.modes (r, mode) := by
  refine Std.ExtTreeMap.ext_getElem? fun r' => ?_
  simp only [modes, setMode, noteSwitch, Std.ExtTreeMap.getElem?_map, Table.getElem?_modify]
  split
  · cases s.ues[r]? <;> rfl
  · rfl

/-! ## One report -/

/-- There is somebody to indicate a switch to, if there are UEs. -/
def Attended (s : SchedulerState Record) : Prop := ∀ r ∈ s.ues, s.controlConnected = true

/-- What a report does to the mode of the UE it is about, and what is said of it. -/
inductive Adapted (out : Outcome Record) (report : CqiReport) : Outcome Record → Prop
  /-- The UE is not configured, or the rank does not change its mode. -/
  | kept (h : ∀ mode, out.1.modes[report.rnti]? = some mode → mode.adapt report.rank = mode) :
      Adapted out report out
  /-- The UE changes its mode, and this is said. -/
  | switched {mode : TransmissionMode} (hmode : out.1.modes[report.rnti]? = some mode)
      (hne : mode.adapt report.rank ≠ mode) :
      Adapted out report (out.1.setMode report.rnti (mode.adapt report.rank),
        out.2 ++ [.modeChanged report.rnti (mode.adapt report.rank)])

/-- A report keeps the mode of its UE, or switches it and says so. -/
theorem adapted_adaptMode (h : out.1.Attended) (report : CqiReport) :
    Adapted out report (adaptMode out report) := by
  obtain ⟨s, said⟩ := out
  have hmodes : s.modes[report.rnti]? = s.ues[report.rnti]?.map (·.mode) :=
    Std.ExtTreeMap.getElem?_map ..
  simp only [adaptMode]
  cases hu : s.ues[report.rnti]? with
  | none =>
    refine .kept fun mode hmode => ?_
    rw [hmodes, hu] at hmode
    cases hmode
  | some u =>
    rw [hu] at hmodes
    dsimp only
    by_cases hmode : u.mode.adapt report.rank = u.mode
    · rw [if_pos hmode]
      exact .kept fun mode h => Option.some.inj (hmodes.symm.trans h) ▸ hmode
    · rw [if_neg hmode, if_pos (h _ (Table.mem_of_getElem? hu))]
      exact .switched hmodes hmode

namespace Adapted

variable (h : Adapted out report out')

include h

/-- Reports do not make anybody stop listening. -/
theorem attended (hattended : out.1.Attended) : out'.1.Attended := by
  cases h with
  | kept => exact hattended
  | switched => exact fun r hr => hattended r (Std.ExtTreeMap.mem_modify.1 hr)

/-- The UE the report is about is in the mode that suits its rank, which is said if it is new. -/
theorem own (hmode : out.1.modes[report.rnti]? = some mode) :
    out'.1.modes[report.rnti]? = some (mode.adapt report.rank) ∧
      announced report.rnti out'.2 = announced report.rnti out.2 ++
        if mode.adapt report.rank = mode then [] else [mode.adapt report.rank] := by
  cases h with
  | kept h =>
    rw [h mode hmode, if_pos rfl, List.append_nil]
    exact ⟨hmode, rfl⟩
  | @switched mode' hmode' hne =>
    obtain rfl : mode' = mode := Option.some.inj (hmode'.symm.trans hmode)
    refine ⟨?_, ?_⟩
    · rw [modes_setMode, noteSwitch, Table.getElem?_modify, if_pos rfl, hmode]
      rfl
    · rw [announced_append, if_neg hne]
      simp [announced, switches, Indication.switch?]

/-- Any other UE is not concerned. -/
theorem other (hr : r ≠ report.rnti) :
    out'.1.modes[r]? = out.1.modes[r]? ∧ announced r out'.2 = announced r out.2 := by
  cases h with
  | kept => exact ⟨rfl, rfl⟩
  | switched =>
    refine ⟨?_, ?_⟩
    · rw [modes_setMode, noteSwitch, Table.getElem?_modify, if_neg hr]
    · rw [announced_append]
      simp [announced, switches, Indication.switch?, hr.symm]

/-- Nor is one that is not configured. -/
theorem unknown (hr : out.1.modes[r]? = none) :
    out'.1.modes[r]? = none ∧ announced r out'.2 = announced r out.2 := by
  by_cases heq : r = report.rnti
  · subst heq
    cases h with
    | kept => exact ⟨hr, rfl⟩
    | switched hmode => cases hr.symm.trans hmode
  · exact (h.other heq).imp_left (·.trans hr)

/-- The MAC keeps up. -/
theorem noted {modes : Table Rnti TransmissionMode}
    (hmodes : (switches out.2).foldl noteSwitch modes = out.1.modes) :
    (switches out'.2).foldl noteSwitch modes = out'.1.modes := by
  cases h with
  | kept => exact hmodes
  | switched =>
    rw [switches, List.filterMap_append, List.foldl_append, modes_setMode]
    exact congrArg (noteSwitch · _) hmodes

end Adapted

/-! ## A list of reports -/

/-- What one report after the other keeps, a list of them keeps. -/
theorem foldl_adaptMode_induction {P : Outcome Record → Prop} (hattended : out.1.Attended)
    (hout : P out) (hstep : ∀ out out' report, Adapted out report out' → P out → P out') :
    P (reports.foldl adaptMode out) := by
  refine (List.foldlRecOn (motive := fun out : Outcome Record => out.1.Attended ∧ P out) reports
    adaptMode ⟨hattended, hout⟩ fun out hout report _ => ?_).2
  have hadapted := adapted_adaptMode hout.1 report
  exact ⟨hadapted.attended hout.1, hstep _ _ report hadapted hout.2⟩

/-- Apart from the ranks, reports have no bearing on modes. -/
theorem modes_note (s : SchedulerState Record) (reports : List CqiReport) :
    (reports.foldl note s).modes = s.modes := by
  rw [foldl_note]
  rfl

/-- Nor on who listens. -/
theorem attended_note (h : s.Attended) (reports : List CqiReport) :
    (reports.foldl note s).Attended := by
  rw [foldl_note]
  exact h

/-- A list of reports takes a UE along the trail of its ranks, however often it is named. -/
theorem foldl_adaptMode_trail (out : Outcome Record) (reports : List CqiReport)
    (hattended : out.1.Attended) (hmode : out.1.modes[r]? = some mode) :
    ∃ changes,
      mode :: changes =
        ((ranks r reports).scanl TransmissionMode.adapt mode).destutter (· ≠ ·) ∧
      announced r (reports.foldl adaptMode out).2 = announced r out.2 ++ changes ∧
      (reports.foldl adaptMode out).1.modes[r]? =
        some ((ranks r reports).foldl TransmissionMode.adapt mode) := by
  -- From the front: the trail of the other reports begins in the mode the first one leaves.
  induction reports generalizing out mode with
  | nil => exact ⟨[], rfl, (List.append_nil _).symm, hmode⟩
  | cons report rest ih =>
    have hadapted := adapted_adaptMode hattended report
    have hattended' := hadapted.attended hattended
    rw [List.foldl_cons]
    by_cases hr : report.rnti = r
    · subst hr
      have hranks : ranks report.rnti (report :: rest) = report.rank :: ranks report.rnti rest := by
        simp [ranks]
      obtain ⟨hown, hsaid⟩ := hadapted.own hmode
      obtain ⟨changes, hchanges, hannounced, hlast⟩ := ih _ hattended' hown
      rw [hranks, TransmissionMode.destutter_scanl, ← hchanges, hannounced, hlast, hsaid,
        List.append_assoc]
      by_cases hadapt : mode.adapt report.rank = mode
      · refine ⟨changes, ?_, ?_, rfl⟩
        · rw [if_pos hadapt, hadapt]
          rfl
        · rw [if_pos hadapt]
          rfl
      · refine ⟨mode.adapt report.rank :: changes, ?_, ?_, rfl⟩
        · rw [if_neg hadapt]
          rfl
        · rw [if_neg hadapt]
          rfl
    · have hranks : ranks r (report :: rest) = ranks r rest := by
        simp [ranks, hr]
      obtain ⟨hmodes, hsaid⟩ := hadapted.other (Ne.symm hr)
      rw [hranks, ← hsaid]
      exact ih _ hattended' (hmodes.trans hmode)

/-! ## One request -/

/-- A change of a UE that leaves its mode alone. -/
theorem modes_modify {f : Ue → Ue} (hf : ∀ u, (f u).mode = u.mode) (r : Rnti)
    (ues : Table Rnti Ue) :
    (ues.modify r f).map (fun _ u => u.mode) = ues.map fun _ u => u.mode := by
  refine Std.ExtTreeMap.ext_getElem? fun r' => ?_
  simp only [Std.ExtTreeMap.getElem?_map, Table.getElem?_modify]
  split
  next heq =>
    subst heq
    rw [Option.map_map]
    exact congrArg (Option.map · _) (funext hf)
  next => rfl

/-- Bearers have no modes. -/
theorem modes_addBearers (s : SchedulerState Record) (r : Rnti) (bearers : List Bearer) :
    (s.addBearers r bearers).modes = s.modes := modes_modify (fun _ => by rfl) r s.ues

/-- Nor has their release. -/
theorem modes_dropBearers (s : SchedulerState Record) (r : Rnti) (lcids : List Lcid) :
    (s.dropBearers r lcids).modes = s.modes := modes_modify (fun _ => by rfl) r s.ues

/-- What an accepted request does to the modes, and which switches are said. -/
inductive ModeEffect (s : SchedulerState Record) :
    Request → SchedulerState Record → List Indication → Prop
  /-- Reports may switch modes one by one. -/
  | reported {reports : List CqiReport} :
      ModeEffect s (.quality reports) (s.learned reports).1 (s.learned reports).2
  /-- Everything else leaves the modes as the request says, and switches none. -/
  | assigned {q : Request} {s' : SchedulerState Record} {said : List Indication}
      (htrail : ∀ adapts r mode, q.trail adapts r mode = [mode])
      (hmodes : s'.modes = q.noteMode s.modes) (hsaid : switches said = []) : ModeEffect s q s' said

/-- An accepted request brings reports, or sets the modes it names and says nothing about switches.
-/
theorem modeEffect_of_step (hstep : s.step policy q = .ok (s', said)) : ModeEffect s q s' said := by
  -- Apart from reports, a request sets the mode of the UE that it names, or none.
  cases accepted_of_step hstep with
  | qualityTaken => exact .reported
  | added =>
    refine .assigned (fun _ _ _ => rfl) (Std.ExtTreeMap.ext_getElem? fun r' => ?_) rfl
    simp only [modes, addUe, Request.noteMode, Std.ExtTreeMap.getElem?_map, Table.getElem?_insert]
    split <;> rfl
  | reconfigured _ _ hue =>
    refine .assigned (fun _ _ _ => rfl) (Std.ExtTreeMap.ext_getElem? fun r' => ?_) rfl
    obtain ⟨u, hu⟩ := Table.exists_of_mem hue
    simp only [modes, setMode, Request.noteMode, Std.ExtTreeMap.getElem?_map,
      Table.getElem?_modify, Table.getElem?_insert, hu]
    split <;> rfl
  | removed =>
    refine .assigned (fun _ _ _ => rfl) (Std.ExtTreeMap.ext_getElem? fun r' => ?_) rfl
    simp only [modes, removeUe, Request.noteMode, Std.ExtTreeMap.getElem?_map,
      Table.getElem?_erase]
    split <;> rfl
  | bearersAdded => exact .assigned (fun _ _ _ => rfl) (modes_addBearers ..) rfl
  | bearersDropped => exact .assigned (fun _ _ _ => rfl) (modes_dropBearers ..) rfl
  | @requested rntis =>
    obtain ⟨ues, hues⟩ := exists_foldl_request rntis s
    refine .assigned (fun _ _ _ => rfl) ?_ rfl
    rw [hues]
    rfl
  | @controlsTaken controls =>
    obtain ⟨ues, hues⟩ := exists_foldl_takeControl controls s
    refine .assigned (fun _ _ _ => rfl) ?_ rfl
    rw [hues]
    rfl
  | _ => exact .assigned (fun _ _ _ => rfl) rfl rfl

/-- Reports take a UE along the trail of the ranks they tell, if modes adapt. -/
theorem learned_trail (hattended : s.Attended) (hmode : s.modes[r]? = some mode)
    (reports : List CqiReport) :
    mode :: announced r (s.learned reports).2 =
        ((Request.quality reports).trail s.config.rankAdaptation r mode).destutter (· ≠ ·) ∧
      (s.learned reports).1.modes[r]? =
        ((Request.quality reports).trail s.config.rankAdaptation r mode).getLast? := by
  rw [← modes_note s reports] at hmode
  rw [learned_eq, Request.trail]
  split
  · obtain ⟨changes, hchanges, hsaid, hlast⟩ := foldl_adaptMode_trail (reports.foldl note s, [])
      reports (attended_note hattended reports) hmode
    rw [← hchanges, List.getLast?_scanl]
    exact ⟨congrArg (mode :: ·) hsaid, hlast⟩
  · exact ⟨rfl, hmode⟩

/-- What one report after the other keeps, the request that brings them keeps. -/
theorem learned_induction {P : Outcome Record → Prop} (hattended : s.Attended)
    (hnoted : P (reports.foldl note s, []))
    (hstep : ∀ out out' report, Adapted out report out' → P out → P out') :
    P (s.learned reports) := by
  rw [learned_eq]
  split
  · exact foldl_adaptMode_induction (attended_note hattended reports) hnoted hstep
  · exact hnoted

/-- The MAC keeps up with the scheduler. -/
theorem noted_of_step (hattended : s.Attended) (hstep : s.step policy q = .ok (s', said)) :
    Event.noteMode s.modes ⟨s, q, s', said⟩ = s'.modes := by
  cases modeEffect_of_step hstep with
  | reported =>
    exact learned_induction
      (P := fun out => (switches out.2).foldl noteSwitch s.modes = out.1.modes) hattended
      (modes_note s _).symm fun _ _ _ hadapted => hadapted.noted
  | assigned _ hmodes hsaid =>
    simp only [Event.noteMode, hsaid, hmodes, List.foldl_nil]

/-- What is announced of a UE are the changes on its trail. -/
theorem changes_of_step (hattended : s.Attended) (hstep : s.step policy q = .ok (s', said))
    (hmode : s.modes[r]? = some mode) :
    mode :: announced r said =
      (q.trail s.config.rankAdaptation r mode).destutter (· ≠ ·) := by
  cases modeEffect_of_step hstep with
  | reported => exact (learned_trail hattended hmode _).1
  | assigned htrail _ hsaid => rw [htrail, announced_of_switches hsaid, List.destutter_singleton]

/-- It ends up where its trail ends, unless the MAC sets its mode. -/
theorem stays_of_step (hattended : s.Attended) (hstep : s.step policy q = .ok (s', said))
    (hmode : s.modes[r]? = some mode) (hsets : q.setsMode r = false) :
    s'.modes[r]? = (q.trail s.config.rankAdaptation r mode).getLast? := by
  cases modeEffect_of_step hstep with
  | reported => exact (learned_trail hattended hmode _).2
  | assigned htrail hmodes =>
    rw [htrail, hmodes, Request.getElem?_noteMode hsets, hmode]
    rfl

/-- Nothing is announced of a UE that is not configured. -/
theorem unknown_of_step (hattended : s.Attended) (hstep : s.step policy q = .ok (s', said))
    (hr : s.modes[r]? = none) : announced r said = [] := by
  cases modeEffect_of_step hstep with
  | @reported reports =>
    refine (learned_induction
      (P := fun out => out.1.modes[r]? = none ∧ announced r out.2 = []) hattended ⟨?_, rfl⟩
      fun _ _ _ hadapted hout => ?_).2
    · rw [modes_note, hr]
    · obtain ⟨hmodes, hsaid⟩ := hadapted.unknown hout.1
      exact ⟨hmodes, hsaid.trans hout.2⟩
  | assigned _ _ hsaid => exact announced_of_switches hsaid

/-- In every accepted request, what happens to the modes is what is said about them. -/
theorem tellsModes_of_step (hattended : s.Attended)
    (hstep : s.step policy q = .ok (s', said)) :
    Event.TellsModes s.config.rankAdaptation ⟨s, q, s', said⟩ where
  changes _ _ hmode := changes_of_step hattended hstep hmode
  stays _ _ hmode hsets := stays_of_step hattended hstep hmode hsets
  unknown _ hr := unknown_of_step hattended hstep hr
  fixed r mode hmode hdiversity hopen := by
    have htrail : ∀ mode' ∈ q.trail s.config.rankAdaptation r mode, mode' = mode := fun _ =>
      Request.eq_of_mem_trail (TransmissionMode.adapt_of_fixed hdiversity hopen)
    obtain ⟨hsaid, hlast⟩ := constant_trail htrail (changes_of_step hattended hstep hmode)
    exact ⟨hsaid, fun hsets => (stays_of_step hattended hstep hmode hsets).trans hlast⟩

end SchedulerState

/-- At the end of a run, and so after each of its requests, the MAC has the modes of the scheduler
on record. The scheduler switches modes as the reported ranks ask it to, if it adapts them at all,
and says so once for each switch. -/
theorem Run.modes_mirrored {policy : Policy Record} {config : SchedulerConfig}
    {es : List (Event Record)} {s : SchedulerState Record} (hrun : Run policy config es s) :
    mirrored es = s.modes ∧ ∀ e ∈ es, e.TellsModes config.rankAdaptation := by
  have hattended : ∀ {s : SchedulerState Record}, Reachable policy config s → s.Attended :=
    fun h r hr => (h.consistent.served r hr).2
  induction hrun with
  | start => exact ⟨rfl, List.forall_mem_nil _⟩
  | @step es s s' q said hrun hstep ih =>
    obtain ⟨hmirrored, htells⟩ := ih
    refine ⟨?_, List.forall_mem_append.2 ⟨htells, List.forall_mem_singleton.2 ?_⟩⟩
    · rw [mirrored, List.foldl_append, ← mirrored, hmirrored]
      exact SchedulerState.noted_of_step (hattended hrun.reachable) hstep
    · rw [← hrun.reachable.invariant.config]
      exact SchedulerState.tellsModes_of_step (hattended hrun.reachable) hstep

/-- The defaults, with modes that adapt. -/
def SchedulerConfig.adaptive : SchedulerConfig :=
  { SchedulerConfig.default with rankAdaptation := true }

/-- A UE that one list of reports names four times is switched three times. -/
theorem modes_mirrored_through_switches :
    ∃ (es : List (Event Throughput)) (s : SchedulerState Throughput),
      Run (Algorithm.tdBet.policy .adaptive) .adaptive es s ∧
      (es.flatMap fun e => announced 1 e.said) =
        [.openLoopSpatialMux, .transmitDiversity, .openLoopSpatialMux] ∧
      mirrored es = s.modes ∧ ∀ e ∈ es, e.TellsModes true := by
  obtain ⟨es, s, hrun, hcheck⟩ := Run.of_replay (Algorithm.tdBet.policy .adaptive) .adaptive
    [.connect true true, .configureCell 6 15, .configureUe 1 .transmitDiversity,
      .configureUe 2 .singleAntenna,
      .quality [⟨1, 2, .wideband, [7], []⟩, ⟨2, 2, .wideband, [7], []⟩, ⟨1, 2, .wideband, [9], []⟩,
        ⟨1, 1, .wideband, [9], []⟩, ⟨1, 2, .wideband, [8], []⟩]]
    (fun es => (es.flatMap fun e => announced 1 e.said) ==
      [.openLoopSpatialMux, .transmitDiversity, .openLoopSpatialMux])
    (by decide +kernel)
  obtain ⟨hmirrored, htells⟩ := Run.modes_mirrored hrun
  exact ⟨es, s, hrun, eq_of_beq hcheck, hmirrored, htells⟩

end LteMac
