import LteMac.Proofs.Scheduler.Strangers
import Mathlib.Data.List.Forall2

/-!
# Releasing a UE

Releasing a UE erases it from every table and leaves the others as they were (`Spares`). Configured
again, it starts like a UE that was never there: everything the scheduler keeps about a UE is
gathered in a `UeView`, and the views of the two are the same.

The first part has two sides. Nothing is left of the UE itself (`Absent`), in the tables that have
entries of it as well as in lists where it stands in line and maps in which it owns blocks. And
nothing is different for the others: their views are the same, they wait in the same order, the
blocks they own are theirs, and the reuse policy treats them alike.

For the second part it is not enough to compare the UE with what it was before, because that is the
point of a release. It is compared with a UE that no request of the run ever told of, in the same
cell at the same time.

* `SchedulerState.spares_removeUe`: what is left of the others;
* `SchedulerState.view_addUe`: what a new UE starts with;
* `Run.erased_of_release`: the release of a UE in any run.
-/

namespace LteMac

/-- What the downlink and the uplink keep about one UE. -/
structure UeView (Record : Type) where
  /-- How the control plane set it up. -/
  ue : Option Ue
  /-- What the downlink keeps of it. -/
  downlink : Option (DownlinkUe Record)
  /-- What the uplink keeps of it. -/
  uplink : Option UplinkUe
  /-- Its downlink processes. -/
  entity : Option DownlinkEntity
  /-- Its report of the whole band. -/
  wideband : Option (Aged Nat)
  /-- Its report by group. -/
  subband : Option (Aged (List (List Nat)))
  /-- The samples of its signal. -/
  sinr : Option (Aged (List Float))
  /-- Feedback that waits, by process. -/
  feedback : List (Nat × List Reception)
  /-- Preambles that wait for an answer, with their sizes. -/
  preambles : List (Nat × Nat)
  /-- Blocks of the next uplink subframe that answer a random access. -/
  reserved : Nat → Bool
  /-- Blocks of past uplink subframes. -/
  granted : Subframe → Nat → Bool

/-- A UE that was just configured, after so many downlink triggers. -/
def UeView.fresh {Record : Type} (policy : Policy Record) (tti : Nat) (mode : TransmissionMode) :
    UeView Record where
  ue := some ⟨mode, ∅⟩
  downlink := some (.idle (policy.fresh tti))
  uplink := some (.idle tti)
  entity := some .fresh
  wideband := none
  subband := none
  sinr := none
  feedback := []
  preambles := []
  reserved _ := false
  granted _ _ := false

/-- Whether a block belongs to a UE; 0 names nobody. -/
def BlockMap.isOf (m : BlockMap) (r : Rnti) (i : Nat) : Bool := r != 0 && m.owner? i == some r

/-- In the map `m'` the blocks that a UE had in `m` belong to nobody, and all others to whom they
belonged. -/
def BlockMap.Freed (r : Rnti) (m m' : BlockMap) : Prop :=
  ∀ i, m'.owner? i = if m.owner? i = some r then some 0 else m.owner? i

/-- Giving the blocks of a UE back leaves those of the others. -/
theorem BlockMap.freed_release (m : BlockMap) (r : Rnti) : m.Freed r (m.release r) := by
  intro i
  rw [owner_release]
  cases m.owner? i with
  | none => simp
  | some r' =>
    by_cases h : r' = r <;> simp [h]

/-- The other UEs keep their blocks. -/
theorem BlockMap.isOf_release {m : BlockMap} {r r' : Rnti} (hne : r' ≠ r) (i : Nat) :
    (m.release r).isOf r' i = m.isOf r' i := by
  rw [isOf, isOf, freed_release m r i]
  split
  next howner =>
    by_cases hzero : r' = 0
    · simp [hzero]
    · have hzero : ((0 : Rnti) == r') = false := beq_false_of_ne (Ne.symm hzero)
      have hother : (r == r') = false := beq_false_of_ne hne.symm
      rw [howner, Option.some_beq_some, Option.some_beq_some, hzero, hother]
  next => rfl

namespace SchedulerState

variable {Record : Type} {policy : Policy Record} {config : SchedulerConfig}
  {s s' : SchedulerState Record} {r r' : Rnti} {mode : TransmissionMode}

/-- What is kept about a UE. -/
def view (s : SchedulerState Record) (r : Rnti) : UeView Record where
  ue := s.ues[r]?
  downlink := s.downlink.ues[r]?
  uplink := s.uplink.ues[r]?
  entity := s.downlink.harq.entity? r
  wideband := s.downlink.quality.wideband.entries[r]?
  subband := s.downlink.quality.subband.entries[r]?
  sinr := s.uplink.quality.sinr.entries[r]?
  feedback := (s.downlink.feedback.filter (·.rnti = r)).map fun f => (f.process, f.layers)
  preambles := (s.preambles.filter (·.rnti = r)).map fun p => (p.id, p.size)
  reserved := s.uplink.reserved.isOf r
  granted time i := s.uplink.history.any fun past => past.1 = time && past.2.isOf r i

/-- From `s` to `s'` nothing changed for any UE but `r`, nor for the cell. -/
structure Spares (r : Rnti) (s s' : SchedulerState Record) : Prop where
  /-- What is kept of the other UEs is the same. -/
  view : ∀ r', r' ≠ r → s'.view r' = s.view r'
  /-- What the reuse policy knows of the others and allows them. -/
  reuse : ∀ r', r' ≠ r → s'.reuse.Alike r' s.reuse r'
  /-- What the cell may use is the same. -/
  usable : s'.reuse.downlinkFlags = s.reuse.downlinkFlags ∧
    s'.reuse.uplinkFlags = s.reuse.uplinkFlags ∧
    s'.reuse.contiguousBlocks = s.reuse.contiguousBlocks
  /-- The feedback and the preambles of the others wait in the same order. -/
  feedback : s'.downlink.feedback = s.downlink.feedback.filter (·.rnti ≠ r)
  /-- So do their preambles. -/
  preambles : s'.preambles = s.preambles.filter (·.rnti ≠ r)
  /-- Reserved blocks stay with their UEs, but for those of `r`. -/
  reserved : s.uplink.reserved.Freed r s'.uplink.reserved
  /-- So do the blocks of past subframes. -/
  history : List.Forall₂ (fun past past' => past'.1 = past.1 ∧ past.2.Freed r past'.2)
    s.uplink.history s'.uplink.history
  /-- The same messages wait to be broadcast. -/
  paging : s'.downlink.paging = s.downlink.paging
  /-- As many triggers are counted. -/
  tti : s'.downlink.tti = s.downlink.tti
  /-- The cursor moves only if it was at `r`. -/
  downlinkCursor : s'.downlink.cursor = if s.downlink.cursor = r then 0 else s.downlink.cursor
  /-- So it is in the uplink. -/
  uplinkCursor : s'.uplink.cursor = if s.uplink.cursor = r then 0 else s.uplink.cursor
  /-- The cell is set up as it was. -/
  cell : s'.grid = s.grid ∧ s'.config = s.config ∧ s'.reuseInstalled = s.reuseInstalled ∧
    s'.controlConnected = s.controlConnected ∧ s'.dataConnected = s.dataConnected

/-- Of what waits for others nothing is dropped. -/
theorem filter_of_ne {α : Type} {name : α → Rnti} (hne : r' ≠ r) (waiting : List α) :
    (waiting.filter (name · ≠ r)).filter (name · = r') = waiting.filter (name · = r') := by
  rw [List.filter_filter]
  refine List.filter_congr fun a _ => ?_
  by_cases h : name a = r' <;> simp [h, hne]

/-- Removing a UE spares the others. -/
theorem spares_removeUe (hs : s.downlink.harq.Separate) (r : Rnti) : Spares r s (s.removeUe r) where
  view r' hne := by
    simp only [view, removeUe, DownlinkQuality.erase, UplinkQuality.erase, AgingTable.erase,
      Table.getElem?_erase, if_neg hne, DownlinkHarq.entity?_erase hs, filter_of_ne hne,
      List.any_map, Function.comp_def, BlockMap.isOf_release hne]
    -- The maps no longer show blocks of `r`, and all others as before.
    congr 1
    exact funext (BlockMap.isOf_release hne)
  reuse r' hne := ReusePolicy.alike_forget hne
  usable := s.reuse.flags_forget r
  feedback := rfl
  preambles := rfl
  reserved := s.uplink.reserved.freed_release r
  history := by
    refine List.forall₂_map_right_iff.2 (List.forall₂_same.2 fun past _ => ?_)
    exact ⟨rfl, past.2.freed_release r⟩
  paging := rfl
  tti := rfl
  downlinkCursor := rfl
  uplinkCursor := rfl
  cell := ⟨rfl, rfl, rfl, rfl, rfl⟩

/-- A UE of which nothing is known starts with fresh records when it is configured. -/
theorem view_addUe (h : s.Absent r) (hs : s.downlink.harq.Separate) :
    (addUe policy s r mode).view r = .fresh policy s.downlink.tti mode := by
  -- What a view shows beside the tables is what the lists and maps hold of the UE: nothing at all,
  -- as it is absent.
  have hfeedback : s.downlink.feedback.filter (·.rnti = r) = [] :=
    List.filter_eq_nil_iff.2 fun f hf => by simpa using h.feedback f hf
  have hpreambles : s.preambles.filter (·.rnti = r) = [] :=
    List.filter_eq_nil_iff.2 fun p hp => by simpa using h.preambles p hp
  have hreserved : s.uplink.reserved.isOf r = fun _ => false := by
    funext i
    simpa [BlockMap.isOf] using fun hr => h.reserved hr i
  have hgranted : (fun time i => s.uplink.history.any fun past =>
      past.1 = time && past.2.isOf r i) = fun _ _ => false := by
    funext time i
    refine List.any_eq_false.2 fun past hpast => ?_
    have hmap : past.2.isOf r i = false := by
      simpa [BlockMap.isOf] using fun hr => h.history hr past hpast i
    simp [hmap]
  simp only [view, addUe, UeView.fresh, Table.getElem?_insert, if_pos,
    DownlinkHarq.entity?_insert hs, Table.not_mem_iff.1 h.wideband,
    Table.not_mem_iff.1 h.subband, Table.not_mem_iff.1 h.sinr, hfeedback, hpreambles, hreserved,
    hgranted, List.map_nil]

/-- The release of a configured UE is not refused. -/
theorem releaseUe_of_mem (hue : r ∈ s.ues) (hcontrol : s.controlConnected = true) :
    s.step policy (.releaseUe r) = .ok (s.removeUe r, [.ueReleased r]) :=
  step_of_accepted (.removed hue hcontrol)

/-- Nor is the configuration of a new one. -/
theorem configureUe_of_not_mem (hnew : r ∉ s.ues) (hgrid : s.grid.isSome = true)
    (hcontrol : s.controlConnected = true) :
    s.step policy (.configureUe r mode) = .ok (addUe policy s r mode, [.ueConfigured r]) :=
  step_of_accepted (.added hgrid hcontrol hnew)

end SchedulerState

variable {Record : Type} {policy : Policy Record} {config : SchedulerConfig}
  {es : List (Event Record)} {s : SchedulerState Record} {r : Rnti}

/-- A configured UE can be released. Then nothing tells of it any more, while all others are as they
were; and configured again, it starts like a UE that no request ever told of: with the same records,
an entity of free processes, no reports, nothing that waits, no blocks, and treated by the reuse
policy like any stranger. -/
theorem Run.erased_of_release (hrun : Run policy config es s) (hue : r ∈ s.ues) :
    ∃ s', s.step policy (.releaseUe r) = .ok (s', [.ueReleased r]) ∧ s'.Absent r ∧
      s.Spares r s' ∧
      ∀ mode, ∃ t, s'.step policy (.configureUe r mode) = .ok (t, [.ueConfigured r]) ∧
        t.view r = .fresh policy s.downlink.tti mode ∧
        ∀ r', Unseen es r' →
          ∃ t', s'.step policy (.configureUe r' mode) = .ok (t', [.ueConfigured r']) ∧
            t'.view r' = t.view r ∧ t'.reuse.Alike r' t.reuse r := by
  have hs := hrun.reachable.consistent
  have hsep := hrun.reachable.invariant.sound.separate
  obtain ⟨hgrid, hcontrol⟩ := hs.served r hue
  have hstep : s.step policy (.releaseUe r) = .ok (s.removeUe r, [.ueReleased r]) :=
    SchedulerState.releaseUe_of_mem hue hcontrol
  have hall : s.Within fun _ => True :=
    ⟨fun _ _ => trivial, fun _ _ => trivial, fun _ _ _ => .inr trivial,
      fun _ _ _ _ _ => .inr trivial, fun _ _ => trivial⟩
  have habsent : (s.removeUe r).Absent r :=
    ((hall.removeUe r).imp fun _ => And.left).absent (hs.removeUe r)
  -- A UE without a trace is configured in the state after the release, and starts afresh.
  have hstart : ∀ r' mode, (s.removeUe r).Absent r' →
      (s.removeUe r).step policy (.configureUe r' mode) =
        .ok ((s.removeUe r).addUe policy r' mode, [.ueConfigured r']) ∧
      ((s.removeUe r).addUe policy r' mode).view r' = .fresh policy s.downlink.tti mode :=
    fun r' mode h => ⟨SchedulerState.configureUe_of_not_mem h.ues hgrid hcontrol,
      SchedulerState.view_addUe h hsep.erase⟩
  refine ⟨_, hstep, habsent, SchedulerState.spares_removeUe hsep r, fun mode => ?_⟩
  obtain ⟨hconfigure, hview⟩ := hstart r mode habsent
  refine ⟨_, hconfigure, hview, fun r' hr' => ?_⟩
  have hrun' := hrun.step hstep
  have hne : r' ≠ r := fun heq => (hrun.absent_of_unseen hr').ues (heq ▸ hue)
  have hunseen : Unseen (es ++ [⟨s, .releaseUe r, s.removeUe r, [.ueReleased r]⟩]) r' := by
    refine List.forall_mem_append.2 ⟨hr', fun e he => ?_⟩
    obtain rfl := List.mem_singleton.1 he
    rintro (hmem | ⟨reuse, hreuse, -⟩)
    · exact hne (List.mem_singleton.1 hmem)
    · cases hreuse
  have habsent' := hrun'.absent_of_unseen hunseen
  obtain ⟨hconfigure', hview'⟩ := hstart r' mode habsent'
  refine ⟨_, hconfigure', hview'.trans hview.symm, ReusePolicy.alike_of_memory rfl ?_⟩
  exact habsent'.memory.trans habsent.memory.symm

/-- A run with two UEs that were served in both directions, reported and sent a preamble, of which
one is released; the run never told of a third one. -/
theorem erased_of_release_beside_other :
    ∃ (es : List (Event Throughput)) (s s' : SchedulerState Throughput),
      Run .tdBet .default es s ∧ 1 ∈ s.ues ∧
      s.step .tdBet (.releaseUe 1) = .ok (s', [.ueReleased 1]) ∧ s'.Absent 1 ∧ s.Spares 1 s' ∧
      s.preambles = [⟨1, 7, 100⟩, ⟨2, 8, 100⟩] ∧ s'.preambles = [⟨2, 8, 100⟩] ∧
      Unseen es 3 ∧
      ∃ t t', s'.step .tdBet (.configureUe 1 .singleAntenna) = .ok (t, [.ueConfigured 1]) ∧
        s'.step .tdBet (.configureUe 3 .singleAntenna) = .ok (t', [.ueConfigured 3]) ∧
        t'.view 3 = t.view 1 := by
  obtain ⟨es, e, hrun, -, hcheck⟩ := Run.of_replay_step .tdBet .default
    [.connect true true, .configureCell 15 15, .configureUe 1 .singleAntenna,
      .configureUe 2 .singleAntenna, .queue 1 0 ⟨40, 0, 0, 0, 0⟩, .queue 2 0 ⟨40, 0, 0, 0, 0⟩,
      .downlinkTrigger [], .downlinkTrigger [],
      .uplinkControls [(1, .bufferStatus [10, 0, 0, 0]), (2, .bufferStatus [10, 0, 0, 0])],
      .uplinkTrigger ⟨4⟩ [], .quality [⟨1, 1, .wideband, [9], []⟩, ⟨2, 1, .wideband, [9], []⟩],
      .randomAccess [⟨1, 7, 100⟩, ⟨2, 8, 100⟩]]
    .noise
    (fun es e => es.all (fun e => !e.request.rntis.contains 3 &&
        !(e.request matches .installReuse _)) &&
      e.before.ues.contains 1 && e.before.preambles == [⟨1, 7, 100⟩, ⟨2, 8, 100⟩])
    (by decide +kernel)
  simp only [Bool.and_eq_true, beq_iff_eq, List.all_eq_true] at hcheck
  obtain ⟨⟨hall, hue⟩, hpreambles⟩ := hcheck
  have hunseen : Unseen es 3 := fun e he => by
    obtain ⟨hrntis, hinstall⟩ := hall e he
    rintro (hmem | ⟨reuse, hreuse, -⟩)
    · simp [hmem] at hrntis
    · simp [hreuse] at hinstall
  have hue : 1 ∈ e.before.ues := Std.ExtTreeMap.mem_iff_contains.2 hue
  obtain ⟨s', hstep, habsent, hspares, hagain⟩ := hrun.erased_of_release hue
  obtain ⟨t, hconfigure, -, hother⟩ := hagain .singleAntenna
  obtain ⟨t', hconfigure', hview, -⟩ := hother 3 hunseen
  refine ⟨es, e.before, s', hrun, hue, hstep, habsent, hspares, hpreambles, ?_, hunseen,
    t, t', hconfigure, hconfigure', hview⟩
  rw [hspares.preambles, hpreambles]
  rfl

end LteMac
