import LteMac.Downlink.Trigger
import LteMac.Proofs.Downlink.NewData
import LteMac.Proofs.Downlink.Retransmission

/-!
# A downlink trigger, stage by stage

The stages of a downlink trigger under names of their own (`DownlinkTrigger.decide_eq`), and what
they do together: to the grid, by adding up what each stage hands out, and to each process, by
following it through the stages.

A trigger runs in one go, and its stages are local to it. To say anything about one of them, and to
have it at hand when the next one is looked at, each is defined here once more, from the state
before the trigger alone: `opened` is the cell after ageing, `paged` the grid that paging leaves,
`retries` the pass over the feedback, and `fresh` the pass over the candidates. That these are the
stages of the program holds by definition.

Two views of a trigger are put together from them. On the grid, each stage hands out what the ones
before it left, and the handouts add up (`handout_data`); it matters that a UE which was sent a
block again has no turn (`not_served_of_turn`), so that no UE is served twice. On a process, what
happens in the second pass depends on how the first one left it, and the three things that can
become of it in both together are the cases of `Course`. All that is proved about blocks over a run
is a case analysis over these three.

* `DownlinkTrigger.allots_paged`, `handout_data`: paging, then data, on what is left;
* `DownlinkTrigger.course_of_trigger`: a process without a block rests, a block in flight meets its
  `Fate`, or a new block starts where none was or the former one lapsed.
-/

namespace LteMac

/-- Every mode has a layer. -/
theorem TransmissionMode.layers_pos (mode : TransmissionMode) : 0 < mode.layers := by
  cases mode <;> decide

/-- Every UE is sent at least one layer, whether it is configured or not; so a new block is never
empty. -/
theorem SchedulerState.layers_pos {Record : Type} (s : SchedulerState Record) (r : Rnti) :
    0 < s.layers r := by
  unfold layers
  cases s.ues[r]? with
  | none => exact Nat.one_pos
  | some u => exact u.mode.layers_pos

/-! ## Paging -/

namespace Paging

variable {grid : Grid} {o : Occupancy}

/-- The groups of a paging grant are those it was made for. -/
theorem indices_grant (grid : Grid) (hsize : o.size ≤ 32) (n : Nat) :
    (grant grid (o.freeBlocks.take n)).bitmap.indices = o.freeBlocks.take n := by
  have hsorted : (o.freeBlocks.take n).Pairwise (· < ·) :=
    (List.Pairwise.filter _ List.pairwise_lt_range).take
  refine RbgBitmap.indices_ofIndices hsorted fun i hi => ?_
  have hfree := Occupancy.mem_freeBlocks.1 (List.mem_of_mem_take hi)
  exact Nat.lt_of_lt_of_le (Occupancy.lt_size_of_isFree hfree) hsize

/-- A message takes some free groups, or none if it waits. -/
theorem allots_send (round : Round) (message : PagingMessage) (hsize : round.occupancy.size ≤ 32) :
    ∃ new, (round.send grid message).sent = round.sent ++ new ∧
      round.occupancy.Allots (round.send grid message).occupancy
        (new.map (·.grant.bitmap.indices)) := by
  cases hfit : fit? grid round.occupancy.freeBlocks.length message.size with
  | none =>
    simp only [Round.send, hfit]
    exact ⟨[], by simp, .refl _⟩
  | some n =>
    simp only [Round.send, hfit]
    refine ⟨_, rfl, ?_⟩
    rw [List.map_singleton, indices_grant grid hsize]
    refine .single (fun hnil => ?_) fun i hi =>
      Occupancy.mem_freeBlocks.1 (List.mem_of_mem_take hi)
    obtain ⟨hpos, hle⟩ := List.mem_range'_1.1 (List.mem_of_find?_eq_some hfit)
    have hlen : (round.occupancy.freeBlocks.take n).length = 0 := by rw [hnil]; rfl
    rw [List.length_take] at hlen
    omega

/-- The groups a pass over the queue gives away were free, and each message gets some. -/
theorem allots_sendAll (grid : Grid) (hsize : o.size ≤ 32) (queue : List PagingMessage) :
    o.Allots (sendAll grid o queue).occupancy
      ((sendAll grid o queue).sent.map (·.grant.bitmap.indices)) := by
  induction queue using List.reverseRecOn with
  | nil => exact .refl o
  | append_singleton queue message ih =>
    have hsnoc : sendAll grid o (queue ++ [message]) =
        (sendAll grid o queue).send grid message := by
      simp [sendAll]
    obtain ⟨new, hsent, hnew⟩ := allots_send (sendAll grid o queue) message (ih.size ▸ hsize)
    rw [hsnoc, hsent, List.map_append]
    exact ih.trans hnew

end Paging

namespace DownlinkTrigger

variable {Record : Type} (policy : Policy Record) (s : SchedulerState Record) (grid : Grid)
  (feedback : List HarqFeedback)

/-! ## The stages -/

/-- The cell once it has aged and answered the random accesses. What the later stages see of time is
all here: processes and reports are a subframe older, and feedback on blocks that were given up is
gone. -/
def opened : SchedulerState Record :=
  { s with preambles := [], downlink := age s.downlink, uplink := (Access.answerAll s grid).1 }

/-- The paging stage. -/
def paged : Paging.Round :=
  Paging.sendAll grid (.ofFlags grid.rbgCount s.reuse.downlinkFlags) s.downlink.paging

/-- The feedback to act upon, the oldest first. -/
def pending : List HarqFeedback := (opened s grid).downlink.feedback ++ feedback

/-- The retransmission stage, as far as it has come when it has acted upon `acted`. The whole stage
has acted upon all that was pending; the proofs look at it after each piece of feedback. -/
def pass (acted : List HarqFeedback) : Retransmission.Round :=
  Retransmission.handleAll s.reuse (opened s grid).downlink.harq (paged s grid).occupancy acted

/-- The retransmission stage. -/
def retries : Retransmission.Round :=
  retransmit (opened s grid) (paged s grid).occupancy feedback

/-- The UEs that may get new data, in the order of their turns. -/
def turns : List Rnti :=
  candidates (opened s grid) (retries s grid feedback).harq (retries s grid feedback).served

/-- Where the stage of new data begins. -/
def start : NewData.Round Record :=
  ⟨s.downlink.ues, (retries s grid feedback).harq, (retries s grid feedback).kept,
    (retries s grid feedback).occupancy, []⟩

/-- The stage of new data. -/
def fresh : NewData.Round Record :=
  sendNew policy (opened s grid) grid (retries s grid feedback) (turns s grid feedback)

/-- The data blocks of the trigger. -/
def data : List DataGrant :=
  (retries s grid feedback).sent ++ (fresh policy s grid feedback).sent

/-- A trigger is its stages. -/
theorem decide_eq :
    decide policy s grid feedback =
      ({ opened s grid with
        downlink :=
          { (opened s grid).downlink with
            ues := recordAll policy s.config.timeWindow (fresh policy s grid feedback).sent
              (fresh policy s grid feedback).ues
            harq := (fresh policy s grid feedback).harq
            feedback := (fresh policy s grid feedback).feedback
            paging := (paged s grid).waiting
            cursor := nextTurn s.downlink.cursor (turns s grid feedback) } },
        [.downlink ⟨data policy s grid feedback, (Access.answerAll s grid).2, (paged s grid).sent,
          1⟩]) := rfl

/-! ## What ageing does -/

variable {r : Rnti} {id : Nat} {p : DownlinkProcess}

/-- Ageing is all that happens to a process before the stages. -/
theorem process?_opened : (opened s grid).downlink.harq.process? r id =
    (s.downlink.harq.process? r id).map (·.age) := DownlinkHarq.process?_refresh

variable {s grid} in
/-- A block that is in flight once the cell has aged was in flight before. -/
theorem inFlight_of_opened (hp : (opened s grid).downlink.harq.process? r id = some p)
    (hflight : p.isFree = false) :
    ∃ q, s.downlink.harq.process? r id = some q ∧ q.isFree = false ∧ q.isOverdue = false ∧
      p = { q with timer := q.timer + 1 } := by
  rw [process?_opened, Option.map_eq_some_iff] at hp
  obtain ⟨q, hq, rfl⟩ := hp
  obtain ⟨hqflight, hdue⟩ := DownlinkProcess.waiting_of_age hflight
  exact ⟨q, hq, hqflight, hdue, DownlinkProcess.age_of_waiting hqflight hdue⟩

/-- Ageing drops feedback and adds none. -/
theorem pending_sublist (r : Rnti) (id : Nat) :
    ((pending s grid feedback).filter (·.isOn r id)).Sublist
      (s.downlink.feedback.filter (·.isOn r id) ++ feedback.filter (·.isOn r id)) := by
  rw [pending, List.filter_append]
  exact (List.filter_sublist.filter _).append (.refl _)

/-- Ageing drops no feedback on a process that is not given up. -/
theorem pending_of_waiting (hp : s.downlink.harq.process? r id = some p)
    (hdue : p.isOverdue = false) :
    (pending s grid feedback).filter (·.isOn r id) =
      (s.downlink.feedback ++ feedback).filter (·.isOn r id) := by
  rw [pending, List.filter_append, List.filter_append]
  refine congrArg (· ++ _) ?_
  change ((s.downlink.feedback.filter _).filter _) = _
  rw [List.filter_filter]
  refine List.filter_congr fun f _ => ?_
  cases hon : f.isOn r id with
  | false => rfl
  | true =>
    obtain ⟨rfl, rfl⟩ := HarqFeedback.isOn_iff.1 hon
    have hkeep : (f.rnti, f.process) ∉ s.downlink.harq.expiring := by
      rw [DownlinkHarq.mem_expiring]
      rintro ⟨q, hq, hover⟩
      obtain rfl := Option.some.inj (hp.symm.trans hq)
      simp [hdue] at hover
    simpa using hkeep

/-! ## What is handed out -/

/-- Paging takes groups that are usable cell-wide, and takes each of them once. -/
theorem allots_paged (hgrid : grid.rbgCount ≤ 32) :
    (Occupancy.ofFlags grid.rbgCount s.reuse.downlinkFlags).Allots (paged s grid).occupancy
      ((paged s grid).sent.map (·.grant.bitmap.indices)) :=
  Paging.allots_sendAll grid (by rwa [Occupancy.size_ofFlags]) _

/-- A bitmap is wide enough for what is left. -/
theorem size_paged (hgrid : grid.rbgCount ≤ 32) : (paged s grid).occupancy.size ≤ 32 := by
  rwa [(allots_paged s grid hgrid).size, Occupancy.size_ofFlags]

/-- In a cell with retransmissions, the stage acts upon everything that is pending. -/
theorem retries_eq (henabled : s.config.harqEnabled = true) :
    retries s grid feedback = pass s grid (pending s grid feedback) := by
  simp [retries, retransmit, pass, pending, opened, henabled]

/-- The retransmission stage, whether the cell has retransmissions or not. -/
theorem fair_retries (hsound : s.downlink.harq.Sound) (hgrid : grid.rbgCount ≤ 32) :
    (retries s grid feedback).Fair s.reuse (paged s grid).occupancy := by
  have hopened : (opened s grid).downlink.harq.Sound := hsound.refresh
  unfold retries retransmit
  split
  · exact Retransmission.fair_handleAll _ hopened (size_paged s grid hgrid) _
  · exact ⟨hopened, .nil _ _⟩

/-- And so it is for what the retransmissions leave. -/
theorem size_start (hsound : s.downlink.harq.Sound) (hgrid : grid.rbgCount ≤ 32) :
    (start s grid feedback).occupancy.size ≤ 32 := by
  rw [start, (fair_retries s grid feedback hsound hgrid).handout.allots.size]
  exact size_paged s grid hgrid

/-- Nobody has two turns in one subframe. -/
theorem nodup_turns : (turns s grid feedback).Nodup :=
  (SchedulerState.nodup_rotation Std.ExtTreeMap.nodup_keys _).filter _

/-- New data goes to some of the candidates, or to none of them. -/
theorem fresh_eq :
    ∃ cs : List Rnti, cs.Nodup ∧ (∀ c ∈ cs, c ∈ turns s grid feedback) ∧ ∃ proposal,
      fresh policy s grid feedback =
        cs.foldl ((setting (opened s grid) grid).serve proposal) (start s grid feedback) := by
  simp only [fresh, sendNew]
  split
  · exact ⟨[], .nil, by simp, ∅, rfl⟩
  · exact ⟨_, nodup_turns s grid feedback, fun _ hc => hc, _, rfl⟩

/-- Who was served a retransmission has no turn. -/
theorem not_served_of_turn {c : Rnti} (hc : c ∈ turns s grid feedback) :
    ∀ b ∈ (retries s grid feedback).sent, b.rnti ≠ c := by
  have hserved : (retries s grid feedback).served c = false := by
    have := (List.mem_filter.1 hc).2
    simp only [Bool.and_eq_true, Bool.not_eq_true'] at this
    exact this.1.1
  simpa [Retransmission.Round.served] using hserved

/-- The stage of new data, and whom it serves. -/
theorem fair_fresh (hsound : s.downlink.harq.Sound) (hgrid : grid.rbgCount ≤ 32) :
    (fresh policy s grid feedback).Fair (setting (opened s grid) grid)
      (retries s grid feedback).occupancy (turns s grid feedback) := by
  obtain ⟨cs, hcs, hsub, proposal, heq⟩ := fresh_eq policy s grid feedback
  have hstart : (start s grid feedback).harq.Sound :=
    (fair_retries s grid feedback hsound hgrid).sound
  obtain ⟨hout, hhand, hnamed, hfirst⟩ := NewData.fair_foldl_serve (setting (opened s grid) grid)
    proposal hstart (size_start s grid feedback hsound hgrid) rfl hcs fun c => s.layers_pos c
  rw [heq]
  exact ⟨hout, hhand, fun b hb => hsub _ (hnamed b hb), hfirst⟩

/-- The data blocks of a trigger are on groups that paging left. -/
theorem handout_data (hsound : s.downlink.harq.Sound) (hgrid : grid.rbgCount ≤ 32) :
    Handout s.reuse (paged s grid).occupancy (fresh policy s grid feedback).occupancy
      (data policy s grid feedback) := by
  have hnew := fair_fresh policy s grid feedback hsound hgrid
  refine (fair_retries s grid feedback hsound hgrid).handout.append hnew.handout ?_
  exact fun b hb b' hb' => not_served_of_turn s grid feedback (hnew.named b' hb') b hb

/-- If a new block was sent on a process, none was sent again on it: its UE had a turn. -/
theorem retries_eq_nil_of_fresh (hsound : s.downlink.harq.Sound) (hgrid : grid.rbgCount ≤ 32)
    {r : Rnti} {id : Nat} {b : DataGrant}
    (hb : b ∈ (fresh policy s grid feedback).sent.filter (·.isOn r id)) :
    (retries s grid feedback).sent.filter (·.isOn r id) = [] := by
  obtain ⟨hmem, hon⟩ := List.mem_filter.1 hb
  have hturn := (fair_fresh policy s grid feedback hsound hgrid).named b hmem
  rw [(DataGrant.isOn_iff.1 hon).1] at hturn
  refine List.filter_eq_nil_iff.2 fun b' hb' hon' => ?_
  exact not_served_of_turn s grid feedback hturn b' hb' (DataGrant.isOn_iff.1 hon').1

/-! ## What becomes of a process -/

/-- What becomes of a process in a trigger, given as it is once the cell has aged, with the
feedback `waiting` on it: the process afterwards, the data blocks on it, and the feedback that
still waits. -/
inductive Course (r : Rnti) (id : Nat) (P : Option DownlinkProcess)
    (waiting : List HarqFeedback) :
    Option DownlinkProcess → List DataGrant → List HarqFeedback → Prop
  /-- It had no block and has none. -/
  | idle (hidle : ∀ p, P = some p → p.isFree = true) : Course r id P waiting P [] []
  /-- It had a block, and no other one was started. -/
  | fated {p p' : DownlinkProcess} {sent : List DataGrant} {kept : List HarqFeedback}
      (hp : P = some p) (hflight : p.isFree = false)
      (hfate : Retransmission.Fate r waiting p p' sent kept) :
      Course r id P waiting (some p') sent kept
  /-- A new block started. -/
  | started {b : DataGrant} (hon : b.isOn r id = true) (hfirst : b.IsFirst)
      (hwhy : ∀ p, P = some p → p.isFree = false → Retransmission.Lapsed waiting p) :
      Course r id P waiting (some (.start b.grant b.pdus)) [b] []

/-- A block of a course that is sent again is the only one, and repeats a block in flight. -/
theorem Course.repeats {P P' : Option DownlinkProcess} {waiting kept : List HarqFeedback}
    {sent : List DataGrant} {b : DataGrant} (h : Course r id P waiting P' sent kept)
    (hb : b ∈ sent) (hagain : b.isAgain = true) :
    ∃ p g g', P = some p ∧ p.isFree = false ∧ Retransmission.Repeats p g g' ∧
      b = Retransmission.repetition r p g' ∧ sent = [b] := by
  cases h with
  | idle => cases hb
  -- A new block is not sent again.
  | started hon hfirst =>
    obtain rfl := List.mem_singleton.1 hb
    rw [hfirst.isAgain] at hagain
    cases hagain
  | @fated p _ _ _ hp hflight hfate =>
    cases hfate with
    | rests => cases hb
    | freed => cases hb
    | again _ hg =>
      have hrep := List.mem_singleton.1 hb
      exact ⟨p, _, _, hp, hflight, hg, hrep, by rw [← hrep]⟩
    | answered hg =>
      have hrep := List.mem_singleton.1 hb
      exact ⟨p, _, _, hp, hflight, hg, hrep, by rw [← hrep]⟩

/-- What becomes of a process in the stage of new data. -/
theorem uptake_fresh (henabled : s.config.harqEnabled = true)
    (hsound : s.downlink.harq.Sound) (hgrid : grid.rbgCount ≤ 32) (r : Rnti) (id : Nat) :
    NewData.Uptake r id ((retries s grid feedback).harq.process? r id)
      ((retries s grid feedback).kept.filter (·.isOn r id))
      ((fresh policy s grid feedback).harq.process? r id)
      ((fresh policy s grid feedback).sent.filter (·.isOn r id))
      ((fresh policy s grid feedback).feedback.filter (·.isOn r id)) := by
  have hstart : (start s grid feedback).harq.Sound :=
    (fair_retries s grid feedback hsound hgrid).sound
  obtain ⟨cs, hcs, hsub, proposal, heq⟩ := fresh_eq policy s grid feedback
  rw [heq]
  exact NewData.uptake_foldl_serve (setting (opened s grid) grid) proposal hstart
    (size_start s grid feedback hsound hgrid) rfl hcs henabled (fun c => s.layers_pos c) r id

/-- Every process takes its course through a trigger. -/
theorem course_of_trigger (henabled : s.config.harqEnabled = true)
    (hsound : s.downlink.harq.Sound) (hgrid : grid.rbgCount ≤ 32) (r : Rnti) (id : Nat) :
    Course r id ((opened s grid).downlink.harq.process? r id)
      ((pending s grid feedback).filter (·.isOn r id))
      ((fresh policy s grid feedback).harq.process? r id)
      ((data policy s grid feedback).filter (·.isOn r id))
      ((fresh policy s grid feedback).feedback.filter (·.isOn r id)) := by
  have hopened : (opened s grid).downlink.harq.Sound := hsound.refresh
  have hretries := retries_eq s grid feedback henabled
  have hup := uptake_fresh policy s grid feedback henabled hsound hgrid r id
  have hserved : ∀ b ∈ (fresh policy s grid feedback).sent.filter (·.isOn r id),
      (retries s grid feedback).sent.filter (·.isOn r id) = [] :=
    fun b hb => retries_eq_nil_of_fresh policy s grid feedback hsound hgrid hb
  rw [data, List.filter_append]
  rw [hretries, pass] at hup hserved ⊢
  -- From here on the stages only matter for what they did to the process.
  generalize (fresh policy s grid feedback).harq.process? r id = p'' at hup ⊢
  generalize (fresh policy s grid feedback).sent.filter (·.isOn r id) = new at hup hserved ⊢
  generalize (fresh policy s grid feedback).feedback.filter (·.isOn r id) = kept at hup ⊢
  by_cases hidle : ∀ p, (opened s grid).downlink.harq.process? r id = some p → p.isFree = true
  · obtain ⟨hproc, hsent, hkept⟩ := Retransmission.idle_handleAll s.reuse hopened
      (size_paged s grid hgrid) hidle (pending s grid feedback)
    rw [hproc, hkept] at hup
    rw [hsent, List.nil_append]
    cases hup with
    | rests => exact .idle hidle
    | started hq hav hon hfirst =>
      exact .started hon hfirst fun p hp hflight => by simp [hidle p hp] at hflight
  · obtain ⟨p, hp, hflight⟩ : ∃ p, (opened s grid).downlink.harq.process? r id = some p ∧
        p.isFree = false := by simpa using hidle
    obtain ⟨p', hp', hfate⟩ := Retransmission.fate_handleAll s.reuse hopened
      (size_paged s grid hgrid) hp hflight (pending s grid feedback)
    rw [hp'] at hup
    cases hup with
    | rests =>
      rw [List.append_nil]
      exact .fated hp hflight hfate
    | @started q b hq hav hon hfirst =>
      -- Nothing was sent on it before, so the block was freed, or is overdue and rests.
      have hnone := hserved b (by simp)
      rw [hnone] at hfate ⊢
      obtain rfl := Option.some.inj hq
      refine .started hon hfirst fun q' hq' _ => ?_
      obtain rfl := Option.some.inj (hp.symm.trans hq')
      generalize (Retransmission.handleAll s.reuse (opened s grid).downlink.harq
        (paged s grid).occupancy (pending s grid feedback)).kept.filter (·.isOn r id) = kept
        at hfate
      cases hfate with
      | rests => exact .overdue (DownlinkProcess.isOverdue_of_isAvailable hav hflight)
      | freed hwhy => exact hwhy

end DownlinkTrigger

end LteMac
