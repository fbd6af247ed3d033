import LteMac.Proofs.Scheduler.Accepted

/-!
# What a request does

The effect of an accepted request, said once for all invariants. Only six requests touch what is in
flight: setting up the cell, adding and releasing a UE, hearing preambles, and the two triggers.
Their effects are spelled out in `Effect`; every other request only changes what the cell knows
(`SchedulerState.Unmoved`) and decides nothing.

This is a coarser view than that of all accepted requests, for invariants about processes, entities,
reserved blocks and waiting feedback. In such a proof the requests that only write reports, queues,
bearers or modes are one case, and need not be looked at again when there is one more of that kind.

* `SchedulerState.effect_of_step`: an accepted request has its effect.
-/

namespace LteMac

/-- A request that touches nothing in flight. -/
def Request.isQuiet : Request → Bool
  | .configureCell .. | .configureUe .. | .releaseUe _ | .randomAccess _ | .downlinkTrigger _
  | .uplinkTrigger .. => false
  | _ => true

namespace SchedulerState

variable {Record : Type} {policy : Policy Record} {s s' t : SchedulerState Record}
  {said : List Indication}

/-! ## Requests that move nothing -/

/-- `s'` differs from `s` in what the cell knows, but not in what is in flight. An entity may be in
a record that is otherwise rewritten, so it is looked up by its UE. -/
structure Unmoved (s s' : SchedulerState Record) : Prop where
  /-- The parameters are the same. -/
  config : s'.config = s.config
  /-- The grid is the same. -/
  grid : s'.grid = s.grid
  /-- The same preambles wait for an answer. -/
  preambles : s'.preambles = s.preambles
  /-- The downlink processes are the same. -/
  harq : s'.downlink.harq = s.downlink.harq
  /-- The same feedback waits. -/
  feedback : s'.downlink.feedback = s.downlink.feedback
  /-- The same blocks are reserved. -/
  reserved : s'.uplink.reserved = s.uplink.reserved
  /-- The uplink processes of each UE are the same. -/
  entities : ∀ r : Rnti, s'.uplink.ues[r]?.map (·.harq) = s.uplink.ues[r]?.map (·.harq)

namespace Unmoved

/-- Nothing moves if nothing happens. -/
theorem refl (s : SchedulerState Record) : Unmoved s s :=
  ⟨rfl, rfl, rfl, rfl, rfl, rfl, fun _ => rfl⟩

/-- Nor does it if two things move nothing. -/
theorem trans (h : Unmoved s s') (h' : Unmoved s' t) : Unmoved s t where
  config := h'.config.trans h.config
  grid := h'.grid.trans h.grid
  preambles := h'.preambles.trans h.preambles
  harq := h'.harq.trans h.harq
  feedback := h'.feedback.trans h.feedback
  reserved := h'.reserved.trans h.reserved
  entities r := (h'.entities r).trans (h.entities r)

/-- A fold moves nothing if none of its steps does. -/
theorem foldl {α : Type} {f : SchedulerState Record → α → SchedulerState Record}
    (hf : ∀ s a, Unmoved s (f s a)) (xs : List α) (s : SchedulerState Record) :
    Unmoved s (xs.foldl f s) := by
  induction xs generalizing s with
  | nil => exact refl s
  | cons a as ih => exact (hf s a).trans (ih (f s a))

end Unmoved

/-- A change of an uplink record that leaves the entity in it alone moves nothing. -/
theorem modifyUplinkUe_unmoved (r : Rnti) {f : UplinkUe → UplinkUe}
    (hf : ∀ u, (f u).harq = u.harq) : Unmoved s (s.modifyUplinkUe r f) := by
  refine { Unmoved.refl s with entities := fun r' => ?_ }
  simp only [modifyUplinkUe, Std.ExtTreeMap.getElem?_modify]
  split
  · simp [Function.comp_def, hf, ← Std.compare_eq_iff_eq.1 ‹_›]
  · rfl

/-- What a UE reports moves nothing. -/
theorem takeControl_unmoved (control : Rnti × UplinkControl) :
    Unmoved s (s.takeControl control) := by
  unfold takeControl
  split
  · exact modifyUplinkUe_unmoved _ fun _ => rfl
  · exact Unmoved.refl s
  · exact Unmoved.refl s

/-- Nothing is decided by what is said. -/
def Undecided (said : List Indication) : Prop :=
  said.flatMap (·.blocks) = [] ∧ said.flatMap (·.answers) = []

/-- Adapting a mode moves nothing, and what is said about it decides nothing. -/
theorem adaptMode_unmoved {out : Outcome Record} (report : CqiReport) (h : Undecided out.2) :
    Unmoved out.1 (adaptMode out report).1 ∧ Undecided (adaptMode out report).2 := by
  obtain ⟨s, said⟩ := out
  simp only [adaptMode]
  split
  · exact ⟨Unmoved.refl _, h⟩
  · split
    · exact ⟨Unmoved.refl _, h⟩
    · refine ⟨{ Unmoved.refl s with }, ?_⟩
      split
      · rw [Undecided, List.flatMap_append, List.flatMap_append, h.1, h.2]
        exact ⟨rfl, rfl⟩
      · exact h

/-- So it is for a list of reports. -/
theorem foldl_adaptMode_unmoved (reports : List CqiReport) (out : Outcome Record)
    (h : Undecided out.2) :
    Unmoved out.1 (reports.foldl adaptMode out).1 ∧
      Undecided (reports.foldl adaptMode out).2 := by
  induction reports generalizing out with
  | nil => exact ⟨Unmoved.refl _, h⟩
  | cons report rest ih =>
    obtain ⟨hmove, hsaid⟩ := adaptMode_unmoved report h
    exact (ih _ hsaid).imp_left hmove.trans

/-- Reports move nothing, and what is said about them decides nothing. -/
theorem learned_unmoved (reports : List CqiReport) :
    Unmoved s (s.learned reports).1 ∧ Undecided (s.learned reports).2 := by
  unfold learned
  dsimp only
  split
  · obtain ⟨hmove, hsaid⟩ := foldl_adaptMode_unmoved reports ({ s with
      downlink := { s.downlink with quality := reports.foldl storeQuality s.downlink.quality }
      reuse := s.reuse.learnAll reports }, []) ⟨rfl, rfl⟩
    exact ⟨{ hmove with }, hsaid⟩
  · exact ⟨{ Unmoved.refl s with }, rfl, rfl⟩

/-! ## The effect of a request -/

/-- What an accepted request does: the state afterwards and what is said. -/
inductive Effect (policy : Policy Record) (s : SchedulerState Record) :
    Request → SchedulerState Record → List Indication → Prop
  /-- The cell gets its carrier. -/
  | cell {downlink uplink : Nat} {reuse : ReusePolicy} (hgrid : s.grid = none)
      (hdownlink : downlink ∈ standardBandwidths) (huplink : uplink ∈ standardBandwidths) :
      Effect policy s (.configureCell downlink uplink)
        { s with
          grid := some ⟨downlink, uplink⟩
          reuse
          uplink := { s.uplink with
            reserved := .empty uplink
            quality := s.uplink.quality.setBandwidth uplink } }
        [.cellConfigured (Grid.rbgSize ⟨downlink, uplink⟩) (Grid.rbgCount ⟨downlink, uplink⟩)]
  /-- A UE is configured. -/
  | added {rnti : Rnti} {mode : TransmissionMode} (hnew : s.ues.contains rnti = false) :
      Effect policy s (.configureUe rnti mode) (addUe policy s rnti mode) [.ueConfigured rnti]
  /-- A UE is released. -/
  | released {rnti : Rnti} :
      Effect policy s (.releaseUe rnti) (s.removeUe rnti) [.ueReleased rnti]
  /-- Preambles wait for an answer. -/
  | heard {preambles : List Preamble} (hgrid : s.grid.isSome = true) :
      Effect policy s (.randomAccess preambles)
        { s with preambles := s.preambles ++ preambles } []
  /-- A downlink subframe is decided. -/
  | downlink {feedback : List HarqFeedback} {grid : Grid} (hgrid : s.grid = some grid) :
      Effect policy s (.downlinkTrigger feedback)
        (DownlinkTrigger.decide policy s grid feedback).1
        (DownlinkTrigger.decide policy s grid feedback).2
  /-- An uplink subframe is decided. -/
  | uplink {time : Subframe} {outcomes : List UplinkOutcome} {grid : Grid}
      (hgrid : s.grid = some grid) :
      Effect policy s (.uplinkTrigger time outcomes)
        (UplinkTrigger.decide s grid time outcomes).1
        (UplinkTrigger.decide s grid time outcomes).2
  /-- Everything else moves nothing that is followed here, and decides nothing. -/
  | quiet {q : Request} {s' : SchedulerState Record} {said : List Indication}
      (hq : q.isQuiet = true) (hmove : Unmoved s s') (hsaid : Undecided said) :
      Effect policy s q s' said

/-- An accepted request has its effect. It is read off the cases of accepted requests, those that
move nothing going into one. -/
theorem effect_of_step {q : Request} (h : s.step policy q = .ok (s', said)) :
    Effect policy s q s' said := by
  have still : Undecided [] := ⟨rfl, rfl⟩
  -- What a quiet request writes is a field that `Unmoved` does not mention.
  cases accepted_of_step h with
  | cell hgrid _ hdownlink huplink => exact .cell hgrid hdownlink huplink
  | added _ _ hnew =>
    exact .added (Bool.eq_false_iff.2 fun h => hnew (Std.ExtTreeMap.mem_iff_contains.2 h))
  | removed => exact .released
  | heard hgrid => exact .heard hgrid
  | downlink _ hgrid => exact .downlink hgrid
  | uplink _ hgrid => exact .uplink hgrid
  | connected | installed | paged | sounded | credited =>
    exact .quiet rfl { Unmoved.refl s with } still
  | noise | sinrIgnored | unattributed => exact .quiet rfl (Unmoved.refl s) still
  | reconfigured | bearersAdded | bearersDropped =>
    exact .quiet rfl { Unmoved.refl s with } ⟨rfl, rfl⟩
  | queued | elementsAdded => exact .quiet rfl { Unmoved.refl s with } still
  | qualityTaken => exact .quiet rfl (learned_unmoved _).1 (learned_unmoved _).2
  | requested =>
    refine .quiet rfl (Unmoved.foldl (fun s rnti => ?_) _ _) still
    exact modifyUplinkUe_unmoved rnti fun _ => rfl
  | controlsTaken => exact .quiet rfl (Unmoved.foldl (fun _ => takeControl_unmoved) _ _) still

end SchedulerState

end LteMac
