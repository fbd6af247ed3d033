import LteMac.Proofs.Radio.Table
import LteMac.Proofs.Scheduler.Accepted

/-!
# Requests in place

A scheduler that keeps its tables in memory does not answer a request in one go: it checks, writes
and speaks one statement after the other, and a refusal halfway would leave what was written before
it. `perform` is that program, over a state that outlives a refusal. It agrees with
`SchedulerState.step`, since every check of a request, down to that of the last entry of a list,
comes before the first write.

That `step` refuses without a trace says nothing by itself: a function that returns either a cause
or a new state has no way to do otherwise. The content is in `perform`, whose monad keeps what was
written when a request is refused. In it the checks of a list are made entry by entry, tables are
written entry by entry, and what the source does in separate statements is done in separate
statements here.

A program *gives* an answer on a state (`Work.Gives`) if it ends as that answer says, and leaves the
state as it was if the answer is a refusal. There is one lemma for a check, one for a guard and one
for a check of all entries of a list, each of which goes to the rest of the program with nothing
written yet. With the first write there are no checks left, so what remains is that the writes,
entry by entry, come to the state of `step`.

* `SchedulerState.gives_perform`: the program ends as `step` says, and a refusal leaves the state as
  it was;
* `SchedulerState.traceless`: a refused request leaves no trace, and an accepted one is answered as
  it should be (`Request.Answered`).
-/

namespace LteMac

variable {Record : Type}

/-! ## Programs

The monad of the program, its four statements, and what it means that a program gives an answer. The
lemmas about checks all have the same form: if the rest of the program gives what it should once the
check has passed, then so does the whole.
-/

/-- A program over the state and what was said in answer, both of which outlive a refusal. -/
abbrev Work (Record : Type) := ExceptT SchedulerError (StateM (Outcome Record))

namespace Work

variable {α β : Type}

/-- Refuses unless the state passes a check. -/
def demand (check : SchedulerState Record → Except SchedulerError α) : Work Record α :=
  fun out => (check out.1, out)

/-- The present state. -/
def look : Work Record (SchedulerState Record) := fun out => (.ok out.1, out)

/-- Changes the state, and may speak. -/
def change (f : Outcome Record → Outcome Record) : Work Record Unit := fun out => (.ok (), f out)

/-- Changes the state. -/
def write (f : SchedulerState Record → SchedulerState Record) : Work Record Unit :=
  change fun out => (f out.1, out.2)

/-- Says something. -/
def say (i : Indication) : Work Record Unit := change fun out => (out.1, out.2 ++ [i])

/-- A refusal ends the program, and leaves the state as it is then. -/
theorem bind_apply (work : Work Record α) (rest : α → Work Record β) (out : Outcome Record) :
    (work >>= rest) out =
      match work out with
      | (.ok a, out') => rest a out'
      | (.error cause, out') => (.error cause, out') := by
  change (match work out with | (x, out') => ExceptT.bindCont rest x out') = _
  rcases work out with ⟨_ | _, _⟩ <;> rfl

/-- Changes for each entry of a list add up. -/
theorem changeAll_apply (f : Outcome Record → α → Outcome Record) (xs : List α)
    (out : Outcome Record) :
    (xs.forM fun a => change (f · a)) out = (.ok (), xs.foldl f out) := by
  induction xs generalizing out with
  | nil => rfl
  | cons a as ih =>
    rw [List.forM, bind_apply]
    exact ih _

/-- So do writes. -/
theorem writeAll_apply (f : SchedulerState Record → α → SchedulerState Record) (xs : List α)
    (out : Outcome Record) :
    (xs.forM fun a => write (f · a)) out = (.ok (), xs.foldl f out.1, out.2) := by
  refine (changeAll_apply (fun out a => (f out.1 a, out.2)) xs out).trans ?_
  congr 1
  induction xs generalizing out with
  | nil => rfl
  | cons a as ih => exact ih _

/-- Begun on `s`, the program ends as `x` says: with a refusal that leaves everything as it was, or
with a new state and what was said. -/
def Gives (work : Work Record Unit) (s : SchedulerState Record)
    (x : Except SchedulerError (Outcome Record)) : Prop :=
  work (s, []) =
    match x with
    | .error cause => (.error cause, s, [])
    | .ok out => (.ok (), out)

variable {s : SchedulerState Record} {x : Except SchedulerError (Outcome Record)}

/-- A check before the first write. -/
theorem gives_demand {check : SchedulerState Record → Except SchedulerError α}
    {rest : α → Work Record Unit} {g : α → Except SchedulerError (Outcome Record)}
    (h : ∀ a, check s = .ok a → (rest a).Gives s (g a)) :
    (demand check >>= rest).Gives s (check s >>= g) := by
  unfold Gives
  rw [bind_apply, demand]
  cases hcheck : check s with
  | error cause => rfl
  | ok a => exact h a hcheck

/-- Looking at the state before the first write. -/
theorem gives_look {rest : SchedulerState Record → Work Record Unit} (h : (rest s).Gives s x) :
    (look >>= rest).Gives s x := h

/-- A guard before the first write. -/
theorem gives_guard (refused : SchedulerState Record → Bool) {cause : SchedulerError}
    {rest : Unit → Work Record Unit} {g : Unit → Except SchedulerError (Outcome Record)}
    (h : (rest ()).Gives s (g ())) :
    (demand (fun s => if refused s then .error cause else .ok ()) >>= rest).Gives s
      (if refused s then throw cause >>= g else g ()) := by
  unfold Gives
  rw [bind_apply, demand]
  by_cases hrefused : refused s = true
  · rw [if_pos hrefused, if_pos hrefused]
    rfl
  · rw [if_neg hrefused, if_neg hrefused]
    exact h

/-- A check of every entry of a list before the first write. -/
theorem gives_demandAll {check : SchedulerState Record → α → Except SchedulerError Unit}
    {xs : List α} {rest : Unit → Work Record Unit}
    {g : Unit → Except SchedulerError (Outcome Record)} (h : (rest ()).Gives s (g ())) :
    ((xs.forM fun a => demand (check · a)) >>= rest).Gives s (xs.forM (check s) >>= g) := by
  induction xs with
  | nil => exact h
  | cons a as ih =>
    rw [List.forM, List.forM, bind_assoc, bind_assoc]
    exact gives_demand fun _ _ => ih

/-- A check that every entry of a list names a configured UE. -/
theorem gives_demandUes {name : α → Rnti} {xs : List α} {rest : Unit → Work Record Unit}
    {g : Unit → Except SchedulerError (Outcome Record)} (h : (rest ()).Gives s (g ())) :
    ((xs.forM fun a => demand (·.requireUe (name a))) >>= rest).Gives s
      (s.requireUes (xs.map name) >>= g) := by
  have hmap : s.requireUes (xs.map name) = xs.forM fun a => s.requireUe (name a) := by
    rw [SchedulerState.requireUes]
    induction xs with
    | nil => rfl
    | cons a as ih =>
      rw [List.map_cons, List.forM, List.forM, ih]
  rw [hmap]
  exact gives_demandAll h

end Work

open Work

/-! ## The program

Each request is the sequence of statements that the scheduler executes for it. The passes of the two
triggers are one write each: all checks of a trigger are made before its passes begin.
-/

namespace SchedulerState

/-- Attributes one sample of a past data block to the UE that sent it. -/
def creditSample (map : BlockMap) (s : SchedulerState Record) (sample : Float × Nat) :
    SchedulerState Record :=
  match map.owner? sample.2 with
  | none => s
  | some r =>
    if r = 0 || !s.ues.contains r then s
    else { s with uplink := { s.uplink with
      quality := s.uplink.quality.setBlock r sample.2 sample.1 } }

/-- Adapts the modes to the reported ranks, if they do in this cell. -/
def adapt (reports : List CqiReport) : Work Record Unit := do
  if (← look).config.rankAdaptation then
    reports.forM fun report => change (adaptMode · report)

/-- Takes in quality reports: their tables first, then the ranks, then the reuse policy. -/
def learn (reports : List CqiReport) : Work Record Unit := do
  reports.forM fun report => write fun s => { s with downlink := { s.downlink with
    quality := storeQuality s.downlink.quality report } }
  adapt reports
  write fun s => { s with reuse := s.reuse.learnAll reports }

/-- Answers a request in place. -/
def perform (policy : Policy Record) : Request → Work Record Unit
  | .connect control data => do
    write fun s => { s with controlConnected := s.controlConnected || control }
    write fun s => { s with dataConnected := s.dataConnected || data }
  | .installReuse reuse => do
    demand fun s =>
      match s.grid with
      | some grid => requireFit reuse grid
      | none => .ok ()
    write fun s => { s with reuse }
    write fun s => { s with reuseInstalled := true }
  | .configureCell downlink uplink => do
    demand fun s => if s.grid.isSome then .error .cellAlreadyConfigured else .ok ()
    demand requireControl
    let downlink ← demand fun _ => requireBandwidth downlink
    let uplink ← demand fun _ => requireBandwidth uplink
    let grid : Grid := ⟨downlink, uplink⟩
    if (← look).reuseInstalled then demand fun s => requireFit s.reuse grid
    else write fun s => { s with reuse := .full grid.rbgCount grid.uplink }
    write fun s => { s with uplink := { s.uplink with reserved := .empty uplink } }
    write fun s => { s with uplink := { s.uplink with
      quality := s.uplink.quality.setBandwidth uplink } }
    write fun s => { s with grid := some grid }
    say (.cellConfigured grid.rbgSize grid.rbgCount)
  | .configureUe r mode => do
    demand fun s => discard s.requireGrid
    demand requireControl
    demand fun s => if s.ues.contains r then .error (.ueAlreadyConfigured r) else .ok ()
    write fun s => { s with ues := s.ues.insert r ⟨mode, ∅⟩ }
    write fun s => { s with downlink := { s.downlink with harq := s.downlink.harq.insert r } }
    write fun s => { s with downlink := { s.downlink with
      ues := s.downlink.ues.insert r (.idle (policy.fresh s.downlink.tti)) } }
    write fun s => { s with uplink := { s.uplink with
      ues := s.uplink.ues.insert r (.idle s.downlink.tti) } }
    say (.ueConfigured r)
  | .reconfigureUe r mode => do
    demand fun s => discard s.requireGrid
    demand requireControl
    demand (·.requireUe r)
    write (·.setMode r mode)
    say (.ueConfigured r)
  | .configureBearers r bearers => do
    demand (·.requireUe r)
    demand requireControl
    (dedicated bearers).forM fun b => write (·.addBearers r [b])
    write (refreshBearers policy · r)
    say (.bearersConfigured r ((dedicated bearers).map (·.lcid)))
  | .reconfigureBearers r => do
    demand (·.requireUe r)
    demand requireControl
    demand fun _ => .error .bearerReconfiguration
  | .releaseBearers r lcids => do
    demand (·.requireUe r)
    demand requireControl
    demand fun s =>
      match lcids.find? (!s.hasBearer r ·) with
      | some lcid => .error (.unknownChannel r lcid)
      | none => .ok ()
    lcids.forM fun lcid => write (·.dropBearers r [lcid])
    write (refreshBearers policy · r)
    say (.bearersReleased r lcids)
  | .releaseUe r => do
    demand (·.requireUe r)
    demand requireControl
    write fun s => { s with ues := s.ues.erase r }
    write fun s => { s with preambles := s.preambles.filter (·.rnti ≠ r) }
    write fun s => { s with uplink := { s.uplink with
      reserved := s.uplink.reserved.release r } }
    write fun s => { s with downlink := { s.downlink with
      quality := s.downlink.quality.erase r } }
    write fun s => { s with uplink := { s.uplink with quality := s.uplink.quality.erase r } }
    write fun s => { s with downlink := { s.downlink with harq := s.downlink.harq.erase r } }
    write fun s => { s with downlink := { s.downlink with
      feedback := s.downlink.feedback.filter (·.rnti ≠ r) } }
    write fun s => { s with uplink := { s.uplink with
      history := s.uplink.history.map fun h => (h.1, h.2.release r) } }
    write fun s => { s with downlink := { s.downlink with ues := s.downlink.ues.erase r } }
    write fun s => { s with uplink := { s.uplink with ues := s.uplink.ues.erase r } }
    write fun s => { s with reuse := s.reuse.forget r }
    write fun s => { s with downlink := { s.downlink with
      cursor := resetCursor s.downlink.cursor r } }
    write fun s => { s with uplink := { s.uplink with
      cursor := resetCursor s.uplink.cursor r } }
    say (.ueReleased r)
  | .queue r lcid queue => do
    demand (·.requireUe r)
    demand fun s =>
      if lcid ≠ 0 && !s.hasBearer r lcid then .error (.unknownChannel r lcid) else .ok ()
    write (·.modifyDownlinkUe r fun u => { u with queues := u.queues.insert lcid queue })
  | .paging messages => do
    demand fun s => discard s.requireGrid
    write fun s => { s with downlink := { s.downlink with
      paging := s.downlink.paging ++ messages } }
  | .controlElements r elements => do
    demand (·.requireUe r)
    write (·.modifyDownlinkUe r fun u =>
      { u with elements := some ((u.elements.getD .empty).union elements) })
  | .randomAccess preambles => do
    demand fun s => discard s.requireGrid
    write fun s => { s with preambles := s.preambles ++ preambles }
  | .quality reports => do
    demand fun s => discard s.requireGrid
    reports.forM fun report => demand (·.requireUe report.rnti)
    learn reports
  | .downlinkTrigger feedback => do
    demand requireData
    let grid ← demand requireGrid
    feedback.forM fun f => demand (DownlinkTrigger.requireFeedback · f)
    let out := DownlinkTrigger.decide policy (← look) grid feedback
    write fun _ => out.1
    out.2.forM say
  | .uplinkTrigger time outcomes => do
    demand requireData
    let grid ← demand requireGrid
    outcomes.forM fun o => demand (·.requireUe o.rnti)
    let out := UplinkTrigger.decide (← look) grid time outcomes
    write fun _ => out.1
    out.2.forM say
  | .noise => demand fun s => discard s.requireGrid
  | .schedulingRequests rntis => do
    rntis.forM fun r => demand (·.requireUe r)
    rntis.forM fun r => write (·.modifyUplinkUe r fun u => { u with requested := true })
  | .uplinkControls controls => do
    controls.forM fun control => demand (·.requireUe control.1)
    controls.forM fun control => write (·.takeControl control)
  | .sinr time source codes rnti => do
    demand fun s => discard s.requireGrid
    if source ≠ (← look).config.sinrSource then return
    let samples := codes.map Sinr.decode
    match source with
    | .sounding =>
      match rnti with
      | none => demand fun _ => .error .missingSoundingUe
      | some r =>
        demand (·.requireUe r)
        write fun s => { s with uplink := { s.uplink with
          quality := s.uplink.quality.replace r samples } }
    | .data =>
      match (← look).uplink.history.find? (·.1 = time) with
      | none => return
      | some (_, map) =>
        write fun s => { s with uplink := { s.uplink with
          history := s.uplink.history.eraseP (·.1 = time) } }
        samples.zipIdx.forM fun sample => write (creditSample map · sample)

/-! ## Entry by entry

The tables are written once for each entry of a request's list; `step` takes the list in as a whole.
-/

variable {policy : Policy Record} {s : SchedulerState Record} {r : Rnti}

/-- Bearers added one by one are added together. -/
theorem foldl_addBearers (bearers : List Bearer) (s : SchedulerState Record) :
    bearers.foldl (fun s b => s.addBearers r [b]) s = s.addBearers r bearers := by
  induction bearers generalizing s with
  | nil => exact (congrArg (fun ues => { s with ues }) (Table.modify_id s.ues r)).symm
  | cons b bs ih =>
    refine (ih _).trans ?_
    simp only [addBearers, Table.modify_modify]
    rfl

/-- Bearers dropped one by one are dropped together. -/
theorem foldl_dropBearers (lcids : List Lcid) (s : SchedulerState Record) :
    lcids.foldl (fun s lcid => s.dropBearers r [lcid]) s = s.dropBearers r lcids := by
  induction lcids generalizing s with
  | nil =>
    simp only [dropBearers, List.foldl_nil]
    rw [Table.modify_id, Table.modify_id]
  | cons lcid rest ih =>
    refine (ih _).trans ?_
    simp only [dropBearers, Table.modify_modify]
    rfl

/-- Reports taken in one by one are taken in together. -/
theorem foldl_storeQuality (reports : List CqiReport) (s : SchedulerState Record) :
    reports.foldl (fun s report => { s with downlink := { s.downlink with
      quality := storeQuality s.downlink.quality report } }) s =
      { s with downlink := { s.downlink with
        quality := reports.foldl storeQuality s.downlink.quality } } := by
  induction reports generalizing s with
  | nil => rfl
  | cons report rest ih => exact ih _

/-- Adapting modes does not depend on the reuse policy. -/
theorem foldl_adaptMode_reuse (reports : List CqiReport) (reuse : ReusePolicy)
    (out : Outcome Record) :
    reports.foldl adaptMode ({ out.1 with reuse }, out.2) =
      ({ (reports.foldl adaptMode out).1 with reuse }, (reports.foldl adaptMode out).2) := by
  induction reports generalizing out with
  | nil => rfl
  | cons report rest ih =>
    rw [List.foldl_cons, List.foldl_cons, ← ih]
    congr 1
    obtain ⟨s, said⟩ := out
    simp only [adaptMode]
    split
    · rfl
    · split <;> rfl

/-- So the policy may learn before or after the modes adapt. -/
theorem foldl_adaptMode_learnAll (reports : List CqiReport) (out : Outcome Record) :
    reports.foldl adaptMode
        ({ out.1 with reuse := out.1.reuse.learnAll reports }, out.2) =
      ({ (reports.foldl adaptMode out).1 with
          reuse := (reports.foldl adaptMode out).1.reuse.learnAll reports },
        (reports.foldl adaptMode out).2) := by
  have hreuse : (reports.foldl adaptMode out).1.reuse = out.1.reuse :=
    congrArg (·.1.reuse) (foldl_adaptMode_reuse reports out.1.reuse out)
  rw [foldl_adaptMode_reuse, hreuse]

/-- Adapting the modes does not refuse. -/
theorem adapt_apply (reports : List CqiReport) (out : Outcome Record) :
    adapt reports out =
      (.ok (), if out.1.config.rankAdaptation then reports.foldl adaptMode out else out) := by
  unfold adapt
  rw [bind_apply, look]
  dsimp only
  split
  · exact changeAll_apply adaptMode reports out
  · rfl

/-- Quality reports are taken in as `step` does, although the reuse policy learns last. -/
theorem learn_apply (reports : List CqiReport) (s : SchedulerState Record) :
    learn reports (s, []) = (.ok (), s.learned reports) := by
  unfold learn learned
  rw [bind_apply, writeAll_apply, foldl_storeQuality]
  dsimp only
  rw [bind_apply, adapt_apply]
  dsimp only
  by_cases hadapt : s.config.rankAdaptation = true
  · rw [if_pos hadapt, if_pos hadapt]
    exact congrArg (Prod.mk (Except.ok ())) (foldl_adaptMode_learnAll reports (_, [])).symm
  · rw [if_neg hadapt, if_neg hadapt]
    rfl

/-- A sample is written to the report of its owner, or dropped. -/
theorem creditSample_eq (map : BlockMap) (s : SchedulerState Record) (sample : Float × Nat) :
    creditSample map s sample =
      { s with uplink := { s.uplink with
        quality :=
          match map.owner? sample.2 with
          | none => s.uplink.quality
          | some r =>
            if r = 0 || !s.ues.contains r then s.uplink.quality
            else s.uplink.quality.setBlock r sample.2 sample.1 } } := by
  unfold creditSample
  cases map.owner? sample.2 with
  | none => rfl
  | some r =>
    dsimp only
    split <;> rfl

/-- Samples credited one by one are credited together. -/
theorem foldl_creditSample (map : BlockMap) (samples : List Float) (s : SchedulerState Record) :
    samples.zipIdx.foldl (creditSample map) s =
      { s with uplink := { s.uplink with quality := s.creditSamples map samples } } := by
  unfold creditSamples
  generalize samples.zipIdx = samples
  induction samples generalizing s with
  | nil => rfl
  | cons sample rest ih =>
    rw [List.foldl_cons, creditSample_eq]
    exact ih _

/-! ## No trace

One case for each request. Its checks are passed by the lemmas above, and what is left are the
writes.
-/

/-- The program ends as `step` says. The cases are those of the request; in each of them the checks
are passed one after the other, in the order in which both make them. -/
theorem gives_perform (policy : Policy Record) (s : SchedulerState Record) (q : Request) :
    (perform policy q).Gives s (s.step policy q) := by
  cases q with
  | connect => rfl
  | installReuse reuse =>
    rcases s with ⟨_, _, _, _ | grid⟩
    · rfl
    · exact gives_demand fun _ _ => rfl
  | configureCell downlink uplink =>
    change Gives _ s (s.configureCell downlink uplink)
    unfold configureCell
    refine gives_guard (·.grid.isSome) ?_
    refine gives_demand fun _ _ => gives_demand fun downlink _ => gives_demand fun uplink _ =>
      gives_look ?_
    -- A policy that was installed is checked against the grid, and there is a default one
    -- otherwise.
    unfold reuseFor
    by_cases hinstalled : s.reuseInstalled = true
    · rw [if_pos hinstalled]
      dsimp only
      rw [if_pos hinstalled, bind_assoc]
      exact gives_demand fun _ _ => rfl
    · rw [if_neg hinstalled]
      dsimp only
      rw [if_neg hinstalled]
      rfl
  | configureUe r mode =>
    refine gives_demand fun _ _ => gives_demand fun _ _ => gives_guard (·.ues.contains r) ?_
    rfl
  | reconfigureUe r mode =>
    exact gives_demand fun _ _ => gives_demand fun _ _ => gives_demand fun _ _ => rfl
  | configureBearers r bearers =>
    refine gives_demand fun _ _ => gives_demand fun _ _ => ?_
    unfold Gives
    rw [bind_apply, writeAll_apply, foldl_addBearers]
    rfl
  | reconfigureBearers r =>
    exact gives_demand fun _ _ => gives_demand fun _ _ => rfl
  | releaseBearers r lcids =>
    refine gives_demand fun _ _ => gives_demand fun _ _ => ?_
    unfold Gives
    rw [bind_apply, demand]
    cases hfind : lcids.find? (!s.hasBearer r ·) with
    | some lcid => rfl
    | none =>
      dsimp only
      rw [bind_apply, writeAll_apply, foldl_dropBearers]
      rfl
  | releaseUe r => exact gives_demand fun _ _ => gives_demand fun _ _ => rfl
  | queue r lcid queue =>
    refine gives_demand fun _ _ => gives_guard (fun s => lcid ≠ 0 && !s.hasBearer r lcid) ?_
    rfl
  | paging messages => exact gives_demand fun _ _ => rfl
  | controlElements r elements => exact gives_demand fun _ _ => rfl
  | randomAccess preambles => exact gives_demand fun _ _ => rfl
  | quality reports =>
    refine gives_demand fun _ _ => gives_demandUes ?_
    exact learn_apply reports s
  | downlinkTrigger feedback =>
    refine gives_demand fun _ _ => gives_demand fun grid _ => gives_demandAll ?_
    rfl
  | uplinkTrigger time outcomes =>
    refine gives_demand fun _ _ => gives_demand fun grid _ => gives_demandUes ?_
    rfl
  | noise =>
    unfold Gives
    simp only [perform, step, takeNoise, demand]
    cases discard s.requireGrid <;> rfl
  | schedulingRequests rntis =>
    refine gives_demandAll ?_
    exact writeAll_apply ..
  | uplinkControls controls =>
    refine gives_demandUes ?_
    exact writeAll_apply ..
  | sinr time source codes rnti =>
    refine gives_demand fun _ _ => gives_look ?_
    -- Measurements of the wrong kind are dropped, before anything else of them is looked at.
    by_cases hsource : source ≠ s.config.sinrSource
    · rw [if_pos hsource, if_pos hsource]
      rfl
    · rw [if_neg hsource, if_neg hsource]
      cases source with
      | sounding =>
        cases rnti with
        | none => rfl
        | some r => exact gives_demand fun _ _ => rfl
      | data =>
        refine gives_look ?_
        cases s.uplink.history.find? (·.1 = time) with
        | none => rfl
        | some past =>
          unfold Gives
          dsimp only
          rw [bind_apply, write, change]
          dsimp only
          rw [writeAll_apply, foldl_creditSample]
          rfl

/-! ## Answers

That a request was accepted says nothing yet about what was said. The answer that each request calls
for is told here, so that the statement about refusals is also one about what is not refused.
-/

end SchedulerState

/-- What an accepted request is answered with: one confirmation for the control plane, one decision
of its direction for a trigger, and nothing for a report, unless modes follow the ranks it tells. -/
def Request.Answered (said : List Indication) : Request → Prop
  | .configureCell downlink uplink =>
    said = [.cellConfigured (Grid.rbgSize ⟨downlink, uplink⟩) (Grid.rbgCount ⟨downlink, uplink⟩)]
  | .configureUe r _ | .reconfigureUe r _ => said = [.ueConfigured r]
  | .configureBearers r bearers =>
    said = [.bearersConfigured r ((SchedulerState.dedicated bearers).map (·.lcid))]
  | .releaseBearers r lcids => said = [.bearersReleased r lcids]
  | .releaseUe r => said = [.ueReleased r]
  | .reconfigureBearers _ => False
  | .downlinkTrigger _ => ∃ decision, said = [.downlink decision]
  | .uplinkTrigger .. => ∃ decision, said = [.uplink decision]
  | .quality _ => ∀ i ∈ said, ∃ r mode, i = .modeChanged r mode
  | _ => said = []

namespace SchedulerState

variable {policy : Policy Record} {s s' : SchedulerState Record} {said : List Indication}

/-- A report is answered with changes of modes only. -/
theorem adaptMode_says {out : Outcome Record} (report : CqiReport)
    (h : ∀ i ∈ out.2, ∃ r mode, i = .modeChanged r mode) :
    ∀ i ∈ (adaptMode out report).2, ∃ r mode, i = .modeChanged r mode := by
  obtain ⟨s, said⟩ := out
  simp only [adaptMode]
  split
  · exact h
  · split
    · exact h
    · dsimp only
      split
      · intro i hi
        rcases List.mem_append.1 hi with hi | hi
        · exact h i hi
        · exact ⟨_, _, List.mem_singleton.1 hi⟩
      · exact h

/-- Reports are answered with changes of modes only. -/
theorem learned_says (reports : List CqiReport) :
    ∀ i ∈ (s.learned reports).2, ∃ r mode, i = .modeChanged r mode := by
  unfold learned
  dsimp only
  split
  · refine List.foldlRecOn (motive := fun out : Outcome Record =>
      ∀ i ∈ out.2, ∃ r mode, i = .modeChanged r mode) reports adaptMode ?_
      fun _ h report _ => adaptMode_says report h
    intro i hi
    cases hi
  · intro i hi
    cases hi

/-- An accepted request has its answer. -/
theorem answered_of_step {q : Request} (h : s.step policy q = .ok (s', said)) :
    q.Answered said := by
  cases accepted_of_step h with
  | qualityTaken => exact learned_says _
  | downlink | uplink => exact ⟨_, rfl⟩
  | _ => exact rfl

/-- A refused request leaves no trace, and an accepted one has its answer. This is for every state,
whether it can be reached or not, every policy and every request. On a refusal the program, begun
with nothing said, ends with the state as it was and nothing said, and the cause is the one that
`step` gives. On success the state and what was said are those of `step`, and what was said is the
answer that the request calls for. -/
theorem traceless (policy : Policy Record) (s : SchedulerState Record) (q : Request) :
    match perform policy q (s, []) with
    | (.error cause, s', said) => s.step policy q = .error cause ∧ s' = s ∧ said = []
    | (.ok (), s', said) => s.step policy q = .ok (s', said) ∧ q.Answered said := by
  have hgives := gives_perform policy s q
  unfold Gives at hgives
  rw [hgives]
  cases hstep : s.step policy q with
  | error cause => exact ⟨rfl, rfl, rfl⟩
  | ok out => exact ⟨rfl, answered_of_step hstep⟩

end SchedulerState

end LteMac
