import LteMac.Proofs.Scheduler.Invariant
import Mathlib.Data.List.Nodup

/-!
# The lineage of a retransmission

A block is sent for the first time by one trigger and again by later ones, for as long as failures
are reported and the last version is not reached. In between, its process times out, its UE is
released and added again, other blocks use the process, and feedback waits in a buffer. None of this
lets a failure be taken for that of another block: whatever is in flight has a *lineage* in the run
so far (`Lineage`), which names the trigger that sent it first, and everything since.

The lineage is an invariant, and most of it is bookkeeping: what the process remembers is the first
block, sent again as often as the run shows. The clause that makes it work is about feedback. When a
new block takes a process over, what waited for the former one is cleared, so any feedback found
waiting came in after the block was first sent (`Lineage.waiting`). A block is sent again only if a
failure is waiting or just came in; hence the failure is one of its own.

An event touches a process in one of three ways (`DownlinkTrigger.Course`), and in each of them the
lineage is carried on: nothing is sent and it is longer by an event (`Lineage.concat`), the block is
sent again and it is longer by a repetition (`Lineage.again`), or a new block begins another one
(`Lineage.started`).

* `Run.traced`: every block in flight has its lineage;
* `Run.faithful_again`: every block that is sent again repeats the block it descends from.
-/

namespace LteMac

variable {Record : Type}

/-! ## Histories -/

/-- The blocks of some events that were sent again on a process. -/
def repetitions (es : List (Event Record)) (r : Rnti) (id : Nat) : List DataGrant :=
  (es.flatMap (·.blocks)).filter fun b => b.isOn r id && b.isAgain

/-- The feedback on a process that came in during some events. -/
def reports (es : List (Event Record)) (r : Rnti) (id : Nat) : List HarqFeedback :=
  (es.flatMap (·.received)).filter (·.isOn r id)

/-- `first` is the last new block on a process: event `m` sent it, and no later one sent another. A
run has at most one origin for a process (`Origin.unique`), so it makes sense to speak of *the*
block that another one repeats. -/
structure Origin (es : List (Event Record)) (r : Rnti) (id m : Nat) (first : DataGrant) : Prop where
  /-- The event sent it. -/
  sent : ∃ e, es[m]? = some e ∧ first ∈ e.blocks
  /-- It is on the process. -/
  isOn : first.isOn r id = true
  /-- It is new data. -/
  isNew : first.isNew = true
  /-- All later blocks on the process are repetitions. -/
  last : ∀ e ∈ es.drop (m + 1), ∀ b ∈ e.blocks, b.isOn r id = true → b.isNew = false

/-- The grant `g` is that of the block `first`, after it was sent again `k` times: sizes, schemes,
process, power control and the number of groups are those of the first transmission, and the version
on each layer is `k`. The groups themselves may be others. -/
structure DownlinkGrant.Sends (g : DownlinkGrant) (first : DataGrant) (k : Nat) : Prop where
  /-- The sizes are those of the first transmission. -/
  tbs : g.tbs = first.grant.tbs
  /-- So are the schemes. -/
  mcs : g.mcs = first.grant.mcs
  /-- So is the process. -/
  process : g.process = first.grant.process
  /-- So is the power command. -/
  tpc : g.tpc = first.grant.tpc
  /-- There are as many groups as there were. -/
  groups : g.bitmap.indices.length = first.rbgs.length
  /-- Each layer has an indicator. -/
  ndi : g.ndi.length = g.tbs.length
  /-- Each layer is in version `k`. -/
  rv : g.rv = List.replicate g.tbs.length k

/-- Where the block of the process `p` comes from. Event `m` of the run sent it first; what the
process remembers is that block after all its repetitions since, and there were no more of them than
there are versions. Event `m` left no feedback on the process, so whatever waits for the block came
in since. -/
structure Lineage (es : List (Event Record)) (s : SchedulerState Record) (r : Rnti) (id : Nat)
    (p : DownlinkProcess) (m : Nat) (first : DataGrant) : Prop where
  /-- The block was first sent by event `m`. -/
  origin : Origin es r id m first
  /-- It was new on all layers. -/
  isFirst : first.IsFirst
  /-- The process remembers its latest repetition. -/
  sends : ∃ g, p.grant = some g ∧ g.Sends first (repetitions (es.drop (m + 1)) r id).length
  /-- The process remembers what it carries. -/
  pdus : p.pdus = first.pdus
  /-- It was not repeated more often than there are versions for. -/
  bound : (repetitions (es.drop (m + 1)) r id).length ≤ maxRedundancyVersion
  /-- Event `m` left no feedback on the process. -/
  cleared : ∃ e, es[m]? = some e ∧ e.after.downlink.feedback.filter (·.isOn r id) = []
  /-- What waits for the block is among what was reported on the process since. -/
  waiting : (s.downlink.feedback.filter (·.isOn r id)).Sublist (reports (es.drop (m + 1)) r id)

section History

variable {es es' : List (Event Record)} {e : Event Record} {s s' : SchedulerState Record}
  {r : Rnti} {id m : Nat} {first : DataGrant} {p p' : DownlinkProcess}

/-- Blocks that were sent again are counted event by event. -/
theorem repetitions_append :
    repetitions (es ++ es') r id = repetitions es r id ++ repetitions es' r id := by
  simp [repetitions]

/-- So is the feedback. -/
theorem reports_append : reports (es ++ es') r id = reports es r id ++ reports es' r id := by
  simp [reports]

/-- The origin lies in the run. -/
theorem Origin.lt_length (h : Origin es r id m first) : m < es.length := by
  obtain ⟨e, he, -⟩ := h.sent
  exact (List.getElem?_eq_some_iff.1 he).1

/-- One more event is one more event since the origin. -/
theorem Origin.drop_concat (h : Origin es r id m first) (e : Event Record) :
    (es ++ [e]).drop (m + 1) = es.drop (m + 1) ++ [e] :=
  List.drop_append_of_le_length h.lt_length

/-- An event that sends nothing new on the process leaves its origin where it was. -/
theorem Origin.concat (h : Origin es r id m first)
    (hold : ∀ b ∈ e.blocks, b.isOn r id = true → b.isNew = false) :
    Origin (es ++ [e]) r id m first where
  sent := by
    rw [List.getElem?_append_left h.lt_length]
    exact h.sent
  isOn := h.isOn
  isNew := h.isNew
  last := by
    rw [h.drop_concat]
    exact List.forall_mem_append.2 ⟨h.last, by simpa using hold⟩

/-- There is only one last new block, in a run whose events send at most one block to each UE. Of
two candidates the later one would be a new block after the earlier one. -/
theorem Origin.unique {m' : Nat} {first' : DataGrant} (h : Origin es r id m first)
    (h' : Origin es r id m' first') (hone : ∀ e ∈ es, (e.blocks.map (·.rnti)).Nodup) :
    m = m' ∧ first = first' := by
  obtain ⟨e, he, hfirst⟩ := h.sent
  obtain ⟨e', he', hfirst'⟩ := h'.sent
  -- Of two different events, the later one would have sent a new block after the last one.
  have later : ∀ {i j : Nat} {a : Event Record}, i < j → es[j]? = some a →
      a ∈ es.drop (i + 1) := by
    intro i j a hij ha
    refine List.mem_iff_getElem?.2 ⟨j - (i + 1), ?_⟩
    rw [List.getElem?_drop, Nat.add_sub_cancel' hij, ha]
  obtain hlt | rfl | hgt := Nat.lt_trichotomy m m'
  · have hold := h.last e' (later hlt he') first' hfirst' h'.isOn
    rw [h'.isNew] at hold
    cases hold
  · -- One event: both blocks go to the UE of the process.
    obtain rfl : e = e' := Option.some.inj (he.symm.trans he')
    have hrnti := (DataGrant.isOn_iff.1 h.isOn).1.trans (DataGrant.isOn_iff.1 h'.isOn).1.symm
    exact ⟨rfl, List.inj_on_of_nodup_map (hone e (List.mem_of_getElem? he)) hfirst hfirst' hrnti⟩
  · have hold := h'.last e (later hgt he) first hfirst h.isOn
    rw [h.isNew] at hold
    cases hold

/-! ## One event -/

/-- An event that sends no block on the process, and leaves it with its block, extends the
lineage. -/
theorem Lineage.concat (h : Lineage es s r id p m first)
    (hblocks : e.blocks.filter (·.isOn r id) = [])
    (hwaiting : (s'.downlink.feedback.filter (·.isOn r id)).Sublist
      (s.downlink.feedback.filter (·.isOn r id) ++ reports [e] r id))
    (hgrant : p'.grant = p.grant) (hpdus : p'.pdus = p.pdus) :
    Lineage (es ++ [e]) s' r id p' m first := by
  -- Nothing was sent on the process, so the origin stays the last new block and nothing is added to
  -- the repetitions.
  have hnone : ∀ b ∈ e.blocks, b.isOn r id = false := by
    simpa [List.filter_eq_nil_iff] using hblocks
  have hrep : repetitions [e] r id = [] := by
    simpa [repetitions, List.filter_eq_nil_iff] using fun b hb hon => by simp [hnone b hb] at hon
  have hdrop := h.origin.drop_concat e
  have hsince : repetitions ((es ++ [e]).drop (m + 1)) r id =
      repetitions (es.drop (m + 1)) r id := by
    rw [hdrop, repetitions_append, hrep, List.append_nil]
  refine
    { origin := h.origin.concat fun b hb hon => by simp [hnone b hb] at hon
      isFirst := h.isFirst
      sends := by rw [hgrant, hsince]; exact h.sends
      pdus := hpdus.trans h.pdus
      bound := by rw [hsince]; exact h.bound
      cleared := ?_
      waiting := ?_ }
  · rw [List.getElem?_append_left h.origin.lt_length]
    exact h.cleared
  -- What waits is from before the event or from the event itself.
  · rw [hdrop, reports_append]
    exact hwaiting.trans (h.waiting.append (.refl _))

/-- A member of a list is at most its maximum. -/
theorem le_foldl_max {l : List Nat} {a k : Nat} (hk : k ≤ a ∨ k ∈ l) : k ≤ l.foldl max a := by
  induction l generalizing a with
  | nil => simpa using hk
  | cons x xs ih =>
    refine ih ?_
    rcases hk with hk | hk
    · exact .inl (Nat.le_trans hk (Nat.le_max_left a x))
    · rcases List.mem_cons.1 hk with rfl | hk
      · exact .inl (Nat.le_max_right a k)
      · exact .inr hk

/-- A block that is not in its last version was not sent again as often as it can be. -/
theorem DownlinkGrant.Sends.lt_of_left {g : DownlinkGrant} {k : Nat} (hsends : g.Sends first k)
    (hfirst : first.IsFirst) (hleft : Retransmission.exhausted g = false) :
    k < maxRedundancyVersion := by
  have hmem : k ∈ g.rv := by
    rw [hsends.rv, hsends.tbs, List.mem_replicate]
    exact ⟨fun h => hfirst.layers (List.length_eq_zero_iff.1 h), rfl⟩
  have hlt : g.rv.foldl max 0 < maxRedundancyVersion := by
    simpa [Retransmission.exhausted] using hleft
  exact Nat.lt_of_le_of_lt (le_foldl_max (.inr hmem)) hlt

/-- Sending a block once more. -/
theorem DownlinkGrant.Sends.again {g g' : DownlinkGrant} {k : Nat} (hsends : g.Sends first k)
    (hg : Retransmission.Repeats p g g') : g'.Sends first (k + 1) := by
  obtain ⟨rbgs, rfl⟩ := hg.again
  exact
    { tbs := hsends.tbs
      mcs := hsends.mcs
      process := hsends.process
      tpc := hsends.tpc
      groups := hg.groups.trans hsends.groups
      ndi := by simpa [Retransmission.again] using hsends.ndi
      rv := by simp [Retransmission.again, hsends.rv] }

/-- A lineage concerns the block of a process only, not how often it was sent or for how long it has
waited. -/
theorem Lineage.congr (h : Lineage es s r id p m first) (hgrant : p'.grant = p.grant)
    (hpdus : p'.pdus = p.pdus) : Lineage es s r id p' m first :=
  { h with sends := hgrant ▸ h.sends, pdus := hpdus.trans h.pdus }

/-- What an event sends again on a process is among what it sends on it. -/
theorem repetitions_singleton :
    repetitions [e] r id = (e.blocks.filter (·.isOn r id)).filter (·.isAgain) := by
  simp [repetitions, List.filter_filter, Bool.and_comm]

/-- The grant of a block that is sent again says so on each layer. -/
theorem DownlinkGrant.Sends.ndi_again {g g' : DownlinkGrant} {k : Nat} (hsends : g.Sends first k)
    (hg : Retransmission.Repeats p g g') : g'.ndi = List.replicate g'.tbs.length 0 := by
  obtain ⟨rbgs, rfl⟩ := hg.again
  simp [Retransmission.again, List.map_const', hsends.ndi]

/-- Sending the block of a process again counts as a repetition, and as no new block. -/
theorem Lineage.repeats {g g' : DownlinkGrant} (h : Lineage es s r id p m first)
    (hg : Retransmission.Repeats p g g')
    (hblocks : e.blocks.filter (·.isOn r id) = [Retransmission.repetition r p g']) :
    g'.Sends first (repetitions (es.drop (m + 1) ++ [e]) r id).length ∧
      (repetitions (es.drop (m + 1) ++ [e]) r id).length ≤ maxRedundancyVersion ∧
      g'.ndi = List.replicate g'.tbs.length 0 := by
  obtain ⟨g₀, hg₀, hsends⟩ := h.sends
  obtain rfl : g = g₀ := Option.some.inj (hg.former.symm.trans hg₀)
  have hndi := hsends.ndi_again hg
  have hlayers : g'.tbs ≠ [] := (hsends.again hg).tbs ▸ h.isFirst.layers
  have hagain : (Retransmission.repetition r p g').isAgain = true := by
    simpa [DataGrant.isAgain, Retransmission.repetition, hndi] using hlayers
  have hlen : (repetitions (es.drop (m + 1) ++ [e]) r id).length =
      (repetitions (es.drop (m + 1)) r id).length + 1 := by
    rw [repetitions_append, repetitions_singleton, hblocks]
    simp [hagain]
  rw [hlen]
  exact ⟨hsends.again hg, hsends.lt_of_left h.isFirst hg.left, hndi⟩

/-- An event that sends the block of the process again extends the lineage by a repetition. -/
theorem Lineage.again {g g' : DownlinkGrant} (h : Lineage es s r id p m first)
    (hg : Retransmission.Repeats p g g')
    (hblocks : e.blocks.filter (·.isOn r id) = [Retransmission.repetition r p g'])
    (hwaiting : (s'.downlink.feedback.filter (·.isOn r id)).Sublist
      (s.downlink.feedback.filter (·.isOn r id) ++ reports [e] r id)) :
    Lineage (es ++ [e]) s' r id (Retransmission.resent p g') m first := by
  -- It is one more repetition, which the version of the block keeps count of.
  obtain ⟨hsends, hbound, hndi⟩ := h.repeats hg hblocks
  have hdrop := h.origin.drop_concat e
  refine
    { origin := h.origin.concat fun b hb hon => ?_
      isFirst := h.isFirst
      sends := ⟨g', rfl, by rwa [hdrop]⟩
      pdus := h.pdus
      bound := by rwa [hdrop]
      cleared := ?_
      waiting := ?_ }
  -- The block that was sent is no new one, so the origin stays the last new block.
  · have hmem : b ∈ e.blocks.filter (·.isOn r id) := List.mem_filter.2 ⟨hb, hon⟩
    rw [hblocks, List.mem_singleton] at hmem
    rw [hmem, hg.not_isNew]
  · rw [List.getElem?_append_left h.origin.lt_length]
    exact h.cleared
  · rw [hdrop, reports_append]
    exact hwaiting.trans (h.waiting.append (.refl _))

/-- An event that sends a new block on the process begins a lineage. -/
theorem Lineage.started {b : DataGrant} (hblocks : e.blocks.filter (·.isOn r id) = [b])
    (hfirst : b.IsFirst) (hwaiting : e.after.downlink.feedback.filter (·.isOn r id) = []) :
    Lineage (es ++ [e]) e.after r id (.start b.grant b.pdus) es.length b := by
  have hmem : b ∈ e.blocks.filter (·.isOn r id) := by simp [hblocks]
  obtain ⟨hb, hon⟩ := List.mem_filter.1 hmem
  have hevent : (es ++ [e])[es.length]? = some e := by simp
  -- Nothing comes after the event, so there are no repetitions yet.
  have hdrop : (es ++ [e]).drop (es.length + 1) = [] := by simp
  exact
    { origin :=
        { sent := ⟨e, hevent, hb⟩
          isOn := hon
          isNew := hfirst.isNew
          last := by simp [hdrop] }
      isFirst := hfirst
      sends := by
        rw [hdrop]
        refine ⟨b.grant, rfl, rfl, rfl, rfl, rfl, rfl, ?_, hfirst.rv⟩
        rw [hfirst.ndi, List.length_replicate]
      pdus := rfl
      bound := by rw [hdrop]; exact Nat.zero_le _
      cleared := ⟨e, hevent, hwaiting⟩
      waiting := by rw [hwaiting]; exact List.nil_sublist _ }

end History

/-! ## Runs -/

variable {policy : Policy Record} {config : SchedulerConfig} {es : List (Event Record)}
  {s s' : SchedulerState Record} {r : Rnti} {id : Nat} {p : DownlinkProcess}

/-- Every block in flight has its lineage. -/
def Traced (es : List (Event Record)) (s : SchedulerState Record) : Prop :=
  ∀ (r : Rnti) (id : Nat) (p : DownlinkProcess), s.downlink.harq.process? r id = some p →
    p.isFree = false → ∃ m first, Lineage es s r id p m first

/-- An event that sends nothing downlink and moves no block keeps every lineage. -/
theorem Traced.frame {q : Request} {said : List Indication} (h : Traced es s)
    (hblocks : said.flatMap (·.blocks) = [])
    (hproc : ∀ {r id p}, s'.downlink.harq.process? r id = some p → p.isFree = false →
      s.downlink.harq.process? r id = some p)
    (hfeedback : ∀ r id, (s'.downlink.feedback.filter (·.isOn r id)).Sublist
      (s.downlink.feedback.filter (·.isOn r id))) :
    Traced (es ++ [⟨s, q, s', said⟩]) s' := by
  intro r id p hp hflight
  obtain ⟨m, first, hline⟩ := h r id p (hproc hp hflight) hflight
  refine ⟨m, first, hline.concat (by simp [Event.blocks, hblocks]) ?_ rfl rfl⟩
  exact (hfeedback r id).trans (List.sublist_append_left _ _)

/-- A block in flight at the end of its course goes on with its lineage, or begins one. -/
theorem Lineage.of_course {P P' : Option DownlinkProcess} {sent : List DataGrant}
    {waiting kept : List HarqFeedback} {e : Event Record}
    (hcourse : DownlinkTrigger.Course r id P waiting P' sent kept)
    (hbefore : ∀ q, P = some q → q.isFree = false → ∃ m first, Lineage es s r id q m first)
    (hsent : e.blocks.filter (·.isOn r id) = sent)
    (hkept : e.after.downlink.feedback.filter (·.isOn r id) = kept)
    (hwaiting : waiting.Sublist (s.downlink.feedback.filter (·.isOn r id) ++ reports [e] r id))
    (hp : P' = some p) (hflight : p.isFree = false) :
    ∃ m first, Lineage (es ++ [e]) e.after r id p m first := by
  cases hcourse with
  -- Nothing is in flight at the end of an idle course.
  | idle hidle => simp [hidle p hp] at hflight
  | fated hq hqflight hfate =>
    obtain rfl := Option.some.inj hp
    obtain ⟨m, first, hline⟩ := hbefore _ hq hqflight
    refine ⟨m, first, ?_⟩
    cases hfate with
    -- Of a block in flight there are two fates that leave it there.
    | rests => exact hline.concat hsent (hkept ▸ hwaiting) rfl rfl
    | again _ hg hsub => exact hline.again hg hsent (hkept ▸ hsub.trans hwaiting)
    | freed => cases hflight
    | answered => cases hflight
  -- A new block took the process over, whatever was on it before.
  | started _ hfirst =>
    obtain rfl := Option.some.inj hp
    exact ⟨es.length, _, .started hsent hfirst hkept⟩

namespace DownlinkTrigger

variable {feedback : List HarqFeedback} {grid : Grid}

/-- An accepted downlink trigger. -/
def event (policy : Policy Record) (s : SchedulerState Record) (grid : Grid)
    (feedback : List HarqFeedback) : Event Record :=
  ⟨s, .downlinkTrigger feedback, (decide policy s grid feedback).1,
    (decide policy s grid feedback).2⟩

/-- What an event of a trigger sent. -/
theorem blocks_event : (event policy s grid feedback).blocks = data policy s grid feedback := by
  simp [event, Event.blocks, decide_eq, Indication.blocks]

/-- What it received. -/
theorem reports_event :
    reports [event policy s grid feedback] r id = feedback.filter (·.isOn r id) := by
  simp [reports, event, Event.received]

/-- The lineage of a block, once the cell has aged. -/
theorem lineage_of_opened (h : Traced es s)
    (hp : (opened s grid).downlink.harq.process? r id = some p) (hflight : p.isFree = false) :
    ∃ m first, Lineage es s r id p m first := by
  obtain ⟨q, hq, hqflight, -, hage⟩ := inFlight_of_opened hp hflight
  obtain ⟨m, first, hline⟩ := h r id q hq hqflight
  exact ⟨m, first, hline.congr (by rw [hage]) (by rw [hage])⟩

/-- A downlink trigger keeps every lineage. -/
theorem traced_event (h : Traced es s) (hinv : s.Invariant config)
    (henabled : config.harqEnabled = true) (hgrid : s.grid = some grid) :
    Traced (es ++ [event policy s grid feedback]) (event policy s grid feedback).after := by
  intro r id p hp hflight
  have hcourse := course_of_trigger policy s grid feedback (hinv.config ▸ henabled) hinv.sound
    (hinv.rbgCount_le hgrid) r id
  refine Lineage.of_course hcourse (fun q hq => lineage_of_opened h hq) ?_ rfl ?_ hp hflight
  · rw [blocks_event]
  · rw [reports_event]
    exact pending_sublist s grid feedback r id

end DownlinkTrigger

/-- An accepted request keeps every lineage. -/
theorem Traced.of_step {q : Request} {said : List Indication} (h : Traced es s)
    (hinv : s.Invariant config) (henabled : config.harqEnabled = true)
    (hstep : s.step policy q = .ok (s', said)) : Traced (es ++ [⟨s, q, s', said⟩]) s' := by
  cases SchedulerState.effect_of_step hstep with
  | cell => exact h.frame rfl (fun hp _ => hp) fun _ _ => .refl _
  | added =>
    -- The processes of the new UE are free, whatever its slot was used for.
    refine h.frame rfl ?_ fun _ _ => .refl _
    intro r id p hp hflight
    rw [SchedulerState.addUe, DownlinkHarq.process?_insert hinv.sound.separate] at hp
    split at hp
    · split at hp <;> cases hp
      cases hflight
    · exact hp
  | released =>
    refine h.frame rfl ?_ ?_
    · intro r id p hp hflight
      rw [SchedulerState.removeUe, DownlinkHarq.process?_erase hinv.sound.separate] at hp
      split at hp
      · cases hp
      · exact hp
    · exact fun _ _ => List.filter_sublist.filter _
  | heard => exact h.frame rfl (fun hp _ => hp) fun _ _ => .refl _
  | downlink hgrid => exact DownlinkTrigger.traced_event h hinv henabled hgrid
  | uplink => exact h.frame rfl (fun hp _ => hp) fun _ _ => .refl _
  | quiet _ hmove hsaid =>
    -- Neither the processes nor the feedback that waits are moved.
    refine h.frame hsaid.1 (fun hp _ => hmove.harq ▸ hp) fun _ _ => ?_
    rw [hmove.feedback]

/-- Every block in flight has its lineage, over the whole of a run. No process is in flight in the
beginning. -/
theorem Run.traced (h : Run policy config es s) (henabled : config.harqEnabled = true) :
    Traced es s := by
  refine h.invariant (P := Traced) ?_ fun hrun htraced hstep =>
    htraced.of_step hrun.reachable.invariant henabled hstep
  intro r id p hp
  simp [SchedulerState.initial, DownlinkHarq.process?_empty] at hp

/-! ## Retransmissions -/

/-- An event sends at most one block to each UE. -/
theorem SchedulerState.Invariant.nodup_blocks (h : s.Invariant config) {q : Request}
    {said : List Indication} (hstep : s.step policy q = .ok (s', said)) :
    ((said.flatMap (·.blocks)).map (·.rnti)).Nodup := by
  cases effect_of_step hstep with
  | downlink hgrid =>
    simpa [DownlinkTrigger.decide_eq, Indication.blocks] using
      (DownlinkTrigger.handout_data policy s _ _ h.sound (h.rbgCount_le hgrid)).nodup
  | quiet _ _ hsaid => rw [hsaid.1]; exact .nil
  | _ => exact .nil

/-- No event of a run sends a UE two blocks. -/
theorem Run.nodup_blocks (h : Run policy config es s) :
    ∀ e ∈ es, (e.blocks.map (·.rnti)).Nodup := by
  intro e he
  obtain ⟨n, hn⟩ := List.mem_iff_getElem?.1 he
  obtain ⟨hbefore, hstep⟩ := h.before_of_getElem? hn
  exact hbefore.reachable.invariant.nodup_blocks hstep

/-- The failure `f` made an event send the block `b` again: the pass over the pending feedback
came to `f`, and sent `b`. -/
def Event.Causes (e : Event Record) (f : HarqFeedback) (b : DataGrant) : Prop :=
  f.isNack = true ∧ ∃ grid before after, e.before.grid = some grid ∧
    DownlinkTrigger.pending e.before grid e.received = before ++ f :: after ∧
    (DownlinkTrigger.pass e.before grid (before ++ [f])).sent =
      (DownlinkTrigger.pass e.before grid before).sent ++ [b]

/-- The block `b`, which event `e` sent again after the events `es`, is faithful to the block
`first` that event `m` sent for the first time: same sizes, schemes, process, power control and
data, as many groups, no control elements a second time, and the version that the repetitions so far
lead to. The failure that caused it was reported after event `m`, on a process on which no report
was left then. -/
structure Faithful (es : List (Event Record)) (e : Event Record) (b : DataGrant) (m : Nat)
    (first : DataGrant) : Prop where
  /-- The first transmission is the last new block on the process. -/
  origin : Origin es b.rnti b.grant.process m first
  /-- It was new on all layers. -/
  isFirst : first.IsFirst
  /-- It is sent as before, in the version that the repetitions so far lead to. -/
  sends : b.grant.Sends first
    (repetitions (es.drop (m + 1) ++ [e]) b.rnti b.grant.process).length
  /-- It was not repeated more often than there are versions for. -/
  bound : (repetitions (es.drop (m + 1) ++ [e]) b.rnti b.grant.process).length ≤
    maxRedundancyVersion
  /-- No layer is new any more. -/
  ndi : b.grant.ndi = List.replicate b.grant.tbs.length 0
  /-- The data is that of the first transmission. -/
  pdus : b.pdus = first.pdus
  /-- Control elements are not sent a second time. -/
  elements : b.elements = .empty
  /-- No feedback on the process was left when the block was first sent. -/
  cleared : ∃ sender, es[m]? = some sender ∧
    sender.after.downlink.feedback.filter (·.isOn b.rnti b.grant.process) = []
  /-- So whatever waits came in since, among it the failure that is acted upon. -/
  waiting : (e.before.downlink.feedback.filter (·.isOn b.rnti b.grant.process)).Sublist
    (reports (es.drop (m + 1)) b.rnti b.grant.process)
  /-- A failure that was reported since is the cause. -/
  cause : ∃ f ∈ reports (es.drop (m + 1) ++ [e]) b.rnti b.grant.process, e.Causes f b

namespace DownlinkTrigger

variable {feedback : List HarqFeedback} {grid : Grid} {b : DataGrant}

/-- Some pending failure on its process caused a block to be sent again. -/
theorem cause_of_again (hinv : s.Invariant config) (henabled : config.harqEnabled = true)
    (hgrid : s.grid = some grid) (hb : b ∈ data policy s grid feedback)
    (hagain : b.isAgain = true) :
    ∃ f ∈ (pending s grid feedback).filter (·.isOn b.rnti b.grant.process),
      (event policy s grid feedback).Causes f b := by
  have hcount := hinv.rbgCount_le hgrid
  have hretry : b ∈ (retries s grid feedback).sent := by
    refine (List.mem_append.1 hb).resolve_right fun hnew => ?_
    have hfirst := (fair_fresh policy s grid feedback hinv.sound hcount).first b hnew
    rw [hfirst.isAgain] at hagain
    cases hagain
  rw [retries_eq s grid feedback (hinv.config ▸ henabled)] at hretry
  obtain ⟨before, f, after, hpending, hon, hnack, hsent⟩ :=
    Retransmission.cause_of_sent hinv.sound.refresh (size_paged s grid hcount) hretry
  refine ⟨f, List.mem_filter.2 ⟨?_, hon⟩, hnack, grid, before, after, hgrid, hpending, hsent⟩
  rw [hpending]
  simp

/-- A block that a trigger sends again is faithful to the origin of its process. -/
theorem faithful_of_again (h : Traced es s) (hinv : s.Invariant config)
    (henabled : config.harqEnabled = true) (hgrid : s.grid = some grid)
    (hb : b ∈ data policy s grid feedback) (hagain : b.isAgain = true) :
    ∃ m first, Faithful es (event policy s grid feedback) b m first := by
  have hcourse := course_of_trigger policy s grid feedback (hinv.config ▸ henabled) hinv.sound
    (hinv.rbgCount_le hgrid) b.rnti b.grant.process
  obtain ⟨p, g, g', hp, hflight, hg, hrep, hon⟩ :=
    hcourse.repeats (List.mem_filter.2 ⟨hb, DataGrant.isOn_iff.2 ⟨rfl, rfl⟩⟩) hagain
  obtain ⟨m, first, hline⟩ := lineage_of_opened h hp hflight
  obtain ⟨hsends, hbound, hndi⟩ := hline.repeats (e := event policy s grid feedback) hg
    (by rw [blocks_event, hon, ← hrep])
  obtain ⟨f, hf, hcause⟩ := cause_of_again hinv henabled hgrid hb hagain
  have hgrant : b.grant = g' := by rw [hrep]; rfl
  refine ⟨m, first, ?_⟩
  exact
    { origin := hline.origin
      isFirst := hline.isFirst
      sends := hgrant ▸ hsends
      bound := hbound
      ndi := hgrant ▸ hndi
      pdus := by rw [hrep]; exact hline.pdus
      elements := by rw [hrep]; rfl
      cleared := hline.cleared
      waiting := hline.waiting
      cause := by
        refine ⟨f, ?_, hcause⟩
        -- What is pending waited, and so came in since the origin, or comes with the trigger.
        rw [reports_append, reports_event]
        have hmem := (pending_sublist s grid feedback b.rnti b.grant.process).subset hf
        rcases List.mem_append.1 hmem with hwaits | hcomes
        · exact List.mem_append_left _ (hline.waiting.subset hwaits)
        · exact List.mem_append_right _ hcomes }

end DownlinkTrigger

/-- A block that is sent again has one origin in the run, and is faithful to it. This holds of any
run, with any policy: UEs may be released and configured anew between the first transmission and the
repetition, feedback may be late, doubled or wrong, and processes may time out and be used for other
blocks. The only thing asked for is that retransmissions are enabled at all. The origin lies
strictly before the repetition, and any other block that qualifies as an origin is the same block.
-/
theorem Run.faithful_again (hrun : Run policy config es s) (henabled : config.harqEnabled = true)
    {n : Nat} {e : Event Record} {b : DataGrant} (he : es[n]? = some e) (hb : b ∈ e.blocks)
    (hagain : b.isAgain = true) :
    ∃ m first, m < n ∧ Faithful (es.take n) e b m first ∧
      ∀ m' first', Origin (es.take n) b.rnti b.grant.process m' first' →
        m' = m ∧ first' = first := by
  obtain ⟨hbefore, hstep⟩ := hrun.before_of_getElem? he
  have hlen : (es.take n).length ≤ n := List.length_take_le _ _
  -- Only a downlink trigger sends blocks, so the event is one.
  have hfaithful : ∃ m first, Faithful (es.take n) e b m first := by
    obtain ⟨s, q, s', said⟩ := e
    dsimp only at hbefore hstep
    cases SchedulerState.effect_of_step hstep with
    | @downlink feedback grid hgrid =>
      rw [← DownlinkTrigger.event, DownlinkTrigger.blocks_event] at hb
      exact DownlinkTrigger.faithful_of_again (hbefore.traced henabled)
        hbefore.reachable.invariant henabled hgrid hb hagain
    | quiet _ _ hsaid => simp [Event.blocks, hsaid.1] at hb
    | _ => cases hb
  obtain ⟨m, first, hfaithful⟩ := hfaithful
  -- The origin is before the event, and there is only one, as no event sends two blocks on one
  -- process.
  refine ⟨m, first, Nat.lt_of_lt_of_le hfaithful.origin.lt_length hlen, hfaithful, ?_⟩
  exact fun m' first' ho => ho.unique hfaithful.origin hbefore.nodup_blocks

/-- A run in which a block fails once and is sent again. -/
theorem faithful_again_after_failure :
    ∃ (es : List (Event Throughput)) (s : SchedulerState Throughput) (e : Event Throughput)
      (b first : DataGrant) (m : Nat), Run .tdBet .default es s ∧ es[6]? = some e ∧
      b ∈ e.blocks ∧ b.isAgain = true ∧ b.grant.rv = [1] ∧ m < 6 ∧
      Faithful (es.take 6) e b m first := by
  obtain ⟨es, s, hrun, hcheck⟩ := Run.of_replay .tdBet .default
    [.connect true true, .configureCell 6 6, .installReuse (.hard 6 6 ⟨0, 1⟩ ⟨0, 6⟩),
      .configureUe 1 .singleAntenna, .queue 1 0 ⟨400, 0, 0, 0, 0⟩, .downlinkTrigger [],
      .downlinkTrigger [⟨1, 1, [.nack]⟩]]
    (fun es => es[6]?.any fun e => e.blocks.any fun b => b.isAgain && b.grant.rv == [1])
    (by decide +kernel)
  obtain ⟨e, he, hcheck⟩ := (Option.any_eq_true _ _).1 hcheck
  obtain ⟨b, hb, hcheck⟩ := List.any_eq_true.1 hcheck
  obtain ⟨hagain, hrv⟩ : b.isAgain = true ∧ b.grant.rv = [1] := by simpa using hcheck
  obtain ⟨m, first, hm, hfaithful, -⟩ := hrun.faithful_again rfl he hb hagain
  exact ⟨es, s, e, b, first, m, hrun, he, hb, hagain, hrv, hm, hfaithful⟩

end LteMac
