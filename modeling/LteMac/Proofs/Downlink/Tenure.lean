import LteMac.Proofs.Downlink.Awaiting
import LteMac.Proofs.Downlink.Lineage
import LteMac.Proofs.Scheduler.Consistency

/-!
# How long a block stays on its process

A process carries a block from one transmission to the next, and its timer counts the downlink
triggers since the last one. Status, timer, grant and redundancy version are written at different
times of a trigger, but agree at the end of each (`DownlinkProcess.Regular`): the version of a block
in flight tells how often it was sent, and its timer when (`Run.tenured`). Eleven triggers after a
transmission the process may carry another block, and the twelfth takes it away.

There are two invariants, and the second builds upon the first. That a process is regular is a
statement about the process alone, and what can happen to it in a trigger is a case analysis over
its course: it ages, is sent again in the next version, is freed, or starts a new block. That its
timer is right relates it to the run, by the last event that sent a block on it (`LastSent`). For
this to be an invariant it matters that a timer is set back by a transmission and by nothing else,
and counted up by every downlink trigger and by no other event.

* `DownlinkTrigger.layered_fresh`: a new block has the layers of its UE;
* `Run.tenured`: every block in flight was sent as long ago as its timer says;
* `Run.processes_regular`: what is true of every process, at any time.
-/

namespace LteMac

variable {Record : Type} {r : Rnti} {id : Nat}

/-! ## Layers -/

/-- No mode has more than two layers. -/
theorem TransmissionMode.layers_le (mode : TransmissionMode) : mode.layers ≤ 2 := by
  cases mode <;> decide

/-- No UE is served in more. -/
theorem SchedulerState.layers_le (s : SchedulerState Record) (r : Rnti) : s.layers r ≤ 2 := by
  unfold layers
  cases s.ues[r]? with
  | none => exact Nat.le_succ 1
  | some u => exact u.mode.layers_le

namespace NewData

variable {round : Round Record}

/-- Whether a block has a scheme and a size for each layer of its UE. -/
def Layered (setting : Setting) (b : DataGrant) : Prop :=
  b.grant.tbs.length = setting.layers b.rnti ∧ b.grant.mcs.length = setting.layers b.rnti

/-- A candidate is sent a block in its layers, or none. -/
theorem layered_serve (setting : Setting) (proposal : Allocation)
    (h : ∀ b ∈ round.sent, Layered setting b) (c : Rnti) :
    ∀ b ∈ (setting.serve proposal round c).sent, Layered setting b := by
  obtain heq | ⟨u, process, harq, -, -, -, heq⟩ :=
    setting.skips_or_carries proposal round c
  · rw [heq]
    exact h
  · rw [heq, Setting.carry]
    refine List.forall_mem_append.2 ⟨h, ?_⟩
    simp [Layered, Setting.block, Setting.grant, Setting.layerCqis]

/-- The blocks of a whole pass are in the layers of their UEs. -/
theorem layered_foldl_serve (setting : Setting) (proposal : Allocation) (cs : List Rnti)
    (h : ∀ b ∈ round.sent, Layered setting b) :
    ∀ b ∈ (cs.foldl (setting.serve proposal) round).sent, Layered setting b := by
  induction cs generalizing round with
  | nil => exact h
  | cons c rest ih => exact ih (layered_serve setting proposal h c)

end NewData

/-- The new blocks of a trigger have the layers of their UEs. -/
theorem DownlinkTrigger.layered_fresh (policy : Policy Record) (s : SchedulerState Record)
    (grid : Grid) (feedback : List HarqFeedback) :
    ∀ b ∈ (fresh policy s grid feedback).sent,
      b.grant.tbs.length = s.layers b.rnti ∧ b.grant.mcs.length = s.layers b.rnti := by
  obtain ⟨cs, -, -, proposal, heq⟩ := fresh_eq policy s grid feedback
  rw [heq]
  exact NewData.layered_foldl_serve (setting (opened s grid) grid) proposal cs
    (List.forall_mem_nil _)

/-! ## One process -/

/-- The grant of a block on process `id` of UE `r` after `k` repetitions: groups, one or two layers
with a size, a scheme, an indicator and a version each, and all versions `k`. -/
structure DownlinkGrant.IsOn (g : DownlinkGrant) (r : Rnti) (id k : Nat) : Prop where
  /-- It names the UE. -/
  rnti : g.rnti = r
  /-- It names the process. -/
  process : g.process = id
  /-- It is on some groups. -/
  groups : g.bitmap.indices ≠ []
  /-- It has one layer or two. -/
  layers : g.tbs.length = 1 ∨ g.tbs.length = 2
  /-- Each layer has a scheme. -/
  mcs : g.mcs.length = g.tbs.length
  /-- Each layer has an indicator. -/
  ndi : g.ndi.length = g.tbs.length
  /-- Each layer is in version `k`. -/
  rv : g.rv = List.replicate g.tbs.length k

/-- Sending a block once more. -/
theorem DownlinkGrant.IsOn.again {p : DownlinkProcess} {g g' : DownlinkGrant} {k : Nat}
    (h : g.IsOn r id k) (hg : Retransmission.Repeats p g g') :
    g'.IsOn r id (k + 1) ∧ k < maxRedundancyVersion := by
  have hgroups : g'.bitmap.indices ≠ [] := fun hnil => by
    refine h.groups (List.length_eq_zero_iff.1 ?_)
    rw [← hg.groups, hnil, List.length_nil]
  -- All layers have the version `k`, and there is a layer. As the block was not exhausted, `k` is
  -- not the last one.
  have hmem : k ∈ g.rv := by
    rw [h.rv, List.mem_replicate]
    exact ⟨by rcases h.layers with h | h <;> simp [h], rfl⟩
  have hlt : g.rv.foldl max 0 < maxRedundancyVersion := by
    simpa [Retransmission.exhausted] using hg.left
  refine ⟨?_, Nat.lt_of_le_of_lt (le_foldl_max (.inr hmem)) hlt⟩
  obtain ⟨rbgs, rfl⟩ := hg.again
  exact
    { rnti := h.rnti
      process := h.process
      groups := hgroups
      layers := h.layers
      mcs := h.mcs
      ndi := by simpa [Retransmission.again] using h.ndi
      rv := by simp [Retransmission.again, h.rv] }

namespace DownlinkProcess

/-- Process `id` of UE `r` at the end of a trigger. -/
structure Regular (p : DownlinkProcess) (r : Rnti) (id : Nat) : Prop where
  /-- A process is free if it remembers no grant, and the other way round. -/
  free_iff : p.status = 0 ↔ p.grant = none
  /-- A free process has nothing left over from the last block. -/
  idle : p.status = 0 → p.timer = 0 ∧ p.pdus = []
  /-- No block is sent more often than there are versions, and none waits too long. -/
  bound : p.status ≤ maxRedundancyVersion + 1 ∧ p.timer ≤ harqTimeout
  /-- A block that was sent `status` times is in version `status - 1`. -/
  carries : p.status ≠ 0 → ∃ g, p.grant = some g ∧ g.IsOn r id (p.status - 1)

variable {p p' : DownlinkProcess}

/-- A free process is regular. -/
theorem regular_free (r : Rnti) (id : Nat) : free.Regular r id where
  free_iff := by simp [free]
  idle _ := ⟨rfl, rfl⟩
  bound := ⟨Nat.zero_le _, Nat.zero_le _⟩
  carries h := absurd rfl h

namespace Regular

/-- Nothing is left on a regular process that is free. -/
theorem eq_free (h : p.Regular r id) (hfree : p.isFree = true) : p = .free := by
  have hstatus : p.status = 0 := by simpa [isFree] using hfree
  have hgrant := h.free_iff.1 hstatus
  obtain ⟨htimer, hpdus⟩ := h.idle hstatus
  obtain ⟨status, timer, grant, pdus⟩ := p
  simp_all [free]

/-- A process in flight that is not overdue is a subframe older, but not too old. -/
theorem aged (h : p.Regular r id) : p.age.Regular r id := by
  cases hfree : p.isFree with
  | true => rwa [age_of_isFree hfree]
  | false =>
    cases hdue : p.isOverdue with
    | true =>
      rw [age_of_isOverdue hdue]
      exact regular_free r id
    | false =>
      have hstatus : p.status ≠ 0 := by simpa [isFree] using hfree
      have htimer : p.timer < harqTimeout := by simpa [isOverdue, hstatus] using hdue
      rw [age_of_waiting hfree hdue]
      exact
        { free_iff := h.free_iff
          idle := fun h => absurd h hstatus
          bound := ⟨h.bound.1, htimer⟩
          carries := h.carries }

/-- A block that is sent again is in the next version. -/
theorem resent {g g' : DownlinkGrant} (h : p.Regular r id) (hflight : p.isFree = false)
    (hg : Retransmission.Repeats p g g') : (Retransmission.resent p g').Regular r id := by
  have hstatus : p.status ≠ 0 := by simpa [isFree] using hflight
  obtain ⟨g₀, hg₀, hon⟩ := h.carries hstatus
  obtain rfl : g = g₀ := Option.some.inj (hg.former.symm.trans hg₀)
  obtain ⟨hagain, hlt⟩ := hon.again hg
  have hpos : p.status - 1 + 1 = p.status := Nat.sub_add_cancel (Nat.pos_of_ne_zero hstatus)
  exact
    { free_iff := by simp [Retransmission.resent]
      idle := fun h => by simp [Retransmission.resent] at h
      bound := ⟨by simp only [Retransmission.resent]; omega, Nat.zero_le _⟩
      carries := fun _ => ⟨g', rfl, by simpa [Retransmission.resent, hpos] using hagain⟩ }

/-- A block that was just sent for the first time. -/
theorem start {g : DownlinkGrant} {pdus : List (List Pdu)} (hg : g.IsOn r id 0) :
    (start g pdus).Regular r id where
  free_iff := by simp [DownlinkProcess.start]
  idle h := by simp [DownlinkProcess.start] at h
  bound := ⟨Nat.le_add_left 1 _, Nat.zero_le _⟩
  carries _ := ⟨g, rfl, hg⟩

end Regular

end DownlinkProcess

/-! ## Transmissions of a run -/

/-- Whether an event decides a downlink subframe. -/
def Event.isDownlink (e : Event Record) : Bool :=
  match e.request with
  | .downlinkTrigger _ => true
  | _ => false

/-- The downlink triggers after event `m`. -/
def subframesSince (es : List (Event Record)) (m : Nat) : Nat :=
  (es.drop (m + 1)).countP (·.isDownlink)

/-- `b` is the last block on a process: event `m` sent it, and no later one sent another. -/
structure LastSent (es : List (Event Record)) (r : Rnti) (id m : Nat) (b : DataGrant) : Prop where
  /-- The event sent it. -/
  sent : ∃ e, es[m]? = some e ∧ b ∈ e.blocks
  /-- It is on the process. -/
  isOn : b.isOn r id = true
  /-- No later event sent another one there. -/
  last : ∀ e ∈ es.drop (m + 1), ∀ b' ∈ e.blocks, b'.isOn r id = false

section History

variable {es : List (Event Record)} {e : Event Record} {m m' : Nat} {b b' : DataGrant}

namespace LastSent

/-- The last block was sent in the run. -/
theorem lt_length (h : LastSent es r id m b) : m < es.length := by
  obtain ⟨e, he, -⟩ := h.sent
  exact (List.getElem?_eq_some_iff.1 he).1

/-- No block was sent after the last one. -/
theorem not_later (h : LastSent es r id m b) (h' : LastSent es r id m' b') : m' ≤ m := by
  refine Nat.not_lt.1 fun hlt => ?_
  obtain ⟨e, he, hb⟩ := h'.sent
  have hmem : e ∈ es.drop (m + 1) := by
    refine List.mem_iff_getElem?.2 ⟨m' - (m + 1), ?_⟩
    rw [List.getElem?_drop, Nat.add_sub_cancel' hlt, he]
  exact Bool.false_ne_true ((h.last e hmem b' hb).symm.trans h'.isOn)

/-- There is one last block. -/
theorem unique (h : LastSent es r id m b) (h' : LastSent es r id m' b') : m = m' :=
  Nat.le_antisymm (h'.not_later h) (h.not_later h')

/-- An event that sends nothing on the process. -/
theorem concat (h : LastSent es r id m b) (hnone : e.blocks.filter (·.isOn r id) = []) :
    LastSent (es ++ [e]) r id m b where
  sent := by
    rw [List.getElem?_append_left h.lt_length]
    exact h.sent
  isOn := h.isOn
  last := by
    rw [List.drop_append_of_le_length h.lt_length]
    refine List.forall_mem_append.2 ⟨h.last, ?_⟩
    simpa [List.filter_eq_nil_iff] using hnone

/-- An event that sends a block on the process. -/
theorem of_sent (hsent : e.blocks.filter (·.isOn r id) = [b]) :
    LastSent (es ++ [e]) r id es.length b := by
  obtain ⟨hb, hon⟩ := List.mem_filter.1 (hsent.symm ▸ List.mem_singleton_self b)
  exact ⟨⟨e, by simp, hb⟩, hon, by simp⟩

end LastSent

/-- One more event. -/
theorem subframesSince_concat (hm : m < es.length) (e : Event Record) :
    subframesSince (es ++ [e]) m = subframesSince es m + if e.isDownlink then 1 else 0 := by
  rw [subframesSince, List.drop_append_of_le_length hm, List.countP_append, List.countP_singleton]
  rfl

/-- An event is no subframe ago. -/
theorem subframesSince_length (e : Event Record) : subframesSince (es ++ [e]) es.length = 0 := by
  simp [subframesSince]

end History

/-! ## Runs -/

variable {policy : Policy Record} {config : SchedulerConfig} {es : List (Event Record)}
  {s s' : SchedulerState Record} {p : DownlinkProcess}

/-- The process carries the block that was last sent on it, and its timer tells when. -/
def DownlinkProcess.Dated (p : DownlinkProcess) (es : List (Event Record)) (r : Rnti) (id : Nat) :
    Prop :=
  ∃ m b, LastSent es r id m b ∧ p.Holds b (subframesSince es m)

namespace DownlinkProcess.Dated

variable {e : Event Record} {m : Nat} {b : DataGrant}

/-- A block that was just sent. -/
theorem of_sent (hsent : e.blocks.filter (·.isOn r id) = [b]) (hholds : p.Holds b 0) :
    p.Dated (es ++ [e]) r id := by
  refine ⟨es.length, b, LastSent.of_sent hsent, ?_⟩
  rwa [subframesSince_length]

/-- A block that rests: its age grows if the event decides a downlink subframe. -/
theorem of_rest (hlast : LastSent es r id m b)
    (hnone : e.blocks.filter (·.isOn r id) = [])
    (hholds : p.Holds b (subframesSince es m + if e.isDownlink then 1 else 0)) :
    p.Dated (es ++ [e]) r id := by
  refine ⟨m, b, hlast.concat hnone, ?_⟩
  rwa [subframesSince_concat hlast.lt_length]

end DownlinkProcess.Dated

/-- Every process is regular, and every block in flight was sent when its timer says. -/
def Tenured (es : List (Event Record)) (s : SchedulerState Record) : Prop :=
  ∀ (r : Rnti) (id : Nat) (p : DownlinkProcess), s.downlink.harq.process? r id = some p →
    p.Regular r id ∧ (p.isFree = false → p.Dated es r id)

/-- An event that sends nothing downlink and only frees processes. -/
theorem Tenured.frame {q : Request} {said : List Indication} (h : Tenured es s)
    (hdownlink : (⟨s, q, s', said⟩ : Event Record).isDownlink = false)
    (hblocks : said.flatMap (·.blocks) = [])
    (hproc : ∀ {r id p}, s'.downlink.harq.process? r id = some p →
      p = .free ∨ s.downlink.harq.process? r id = some p) :
    Tenured (es ++ [⟨s, q, s', said⟩]) s' := by
  intro r id p hp
  obtain rfl | hold := hproc hp
  · exact ⟨DownlinkProcess.regular_free r id, fun hflight => by cases hflight⟩
  · obtain ⟨hregular, hdated⟩ := h r id p hold
    refine ⟨hregular, fun hflight => ?_⟩
    obtain ⟨m, b, hlast, hholds⟩ := hdated hflight
    refine .of_rest hlast (by simp [Event.blocks, hblocks]) ?_
    rw [hdownlink]
    exact hholds

namespace DownlinkTrigger

variable {feedback : List HarqFeedback} {grid : Grid} {b : DataGrant}

/-- The grant of a new block. -/
theorem isOn_of_new (hsound : s.downlink.harq.Sound) (hgrid : grid.rbgCount ≤ 32)
    (hb : b ∈ data policy s grid feedback) (hon : b.isOn r id = true) (hfirst : b.IsFirst) :
    b.grant.IsOn r id 0 := by
  have hhand := handout_data policy s grid feedback hsound hgrid
  obtain ⟨htbs, hmcs⟩ := layered_fresh policy s grid feedback b
    (mem_fresh_of_new hsound hgrid hb hfirst.isNew)
  obtain ⟨hrnti, hprocess⟩ := DataGrant.isOn_iff.1 hon
  have hpos := s.layers_pos b.rnti
  have hle := s.layers_le b.rnti
  exact
    { rnti := (hhand.addressed b hb).trans hrnti
      process := hprocess
      groups := hhand.allots.nonempty _ (List.mem_map_of_mem hb)
      layers := by omega
      mcs := hmcs.trans htbs.symm
      ndi := by rw [hfirst.ndi, List.length_replicate]
      rv := hfirst.rv }

/-- A process in flight once the cell has aged carries a block that was last sent a subframe
earlier than its timer said before. -/
theorem dated_of_opened (h : Tenured es s)
    (hp : (opened s grid).downlink.harq.process? r id = some p) :
    p.Regular r id ∧ (p.isFree = false →
      ∃ m b, LastSent es r id m b ∧ p.Holds b (subframesSince es m + 1)) := by
  rw [process?_opened, Option.map_eq_some_iff] at hp
  obtain ⟨q, hq, rfl⟩ := hp
  obtain ⟨hregular, hdated⟩ := h r id q hq
  refine ⟨hregular.aged, fun hflight => ?_⟩
  obtain ⟨hqflight, hdue⟩ := DownlinkProcess.waiting_of_age hflight
  obtain ⟨m, b, hlast, hholds⟩ := hdated hqflight
  refine ⟨m, b, hlast, ?_⟩
  rw [DownlinkProcess.age_of_waiting hqflight hdue]
  exact { hholds with timer := congrArg (· + 1) hholds.timer }

/-- A downlink trigger leaves regular processes, and dates the blocks it sends. -/
theorem tenured_event (h : Tenured es s) (hinv : s.Invariant config)
    (henabled : config.harqEnabled = true) (hgrid : s.grid = some grid) :
    Tenured (es ++ [event policy s grid feedback]) (event policy s grid feedback).after := by
  intro r id p hp
  have hcount := hinv.rbgCount_le hgrid
  have hcourse := course_of_trigger policy s grid feedback (hinv.config ▸ henabled) hinv.sound
    hcount r id
  have hmem : ∀ b ∈ (data policy s grid feedback).filter (·.isOn r id),
      b ∈ data policy s grid feedback := fun b hb => (List.mem_filter.1 hb).1
  have hsent : (event policy s grid feedback).blocks.filter (·.isOn r id) =
      (data policy s grid feedback).filter (·.isOn r id) := by rw [blocks_event]
  have hopened := fun q (hq : (opened s grid).downlink.harq.process? r id = some q) =>
    dated_of_opened h hq
  change (fresh policy s grid feedback).harq.process? r id = some p at hp
  rw [hp] at hcourse
  -- What the event sent on the process now only matters for whether it is nothing or one block.
  generalize (opened s grid).downlink.harq.process? r id = P at hcourse hopened
  generalize (data policy s grid feedback).filter (·.isOn r id) = sent at hcourse hmem hsent
  generalize (fresh policy s grid feedback).feedback.filter (·.isOn r id) = kept at hcourse
  cases hcourse with
  | idle hidle =>
    have hfree := hidle p rfl
    exact ⟨(hopened p rfl).1, fun hflight => by simp [hfree] at hflight⟩
  | @fated q _ _ _ hq hflight hfate =>
    obtain ⟨hregular, hdated⟩ := hopened q hq
    cases hfate with
    | rests =>
      refine ⟨hregular, fun hflight => ?_⟩
      obtain ⟨m, b, hlast, hholds⟩ := hdated hflight
      exact .of_rest hlast hsent hholds
    | again _ hg =>
      exact ⟨hregular.resent hflight hg,
        fun _ => .of_sent hsent (Retransmission.holds_resent r q _)⟩
    | freed | answered => exact ⟨DownlinkProcess.regular_free r id, fun hflight => by cases hflight⟩
  | @started b hon hfirst =>
    refine ⟨.start (isOn_of_new hinv.sound hcount (hmem b (by simp)) hon hfirst), fun _ => ?_⟩
    exact .of_sent hsent (DownlinkProcess.holds_start b)

/-- A new block is put on a process that is available when the retransmissions are over. -/
theorem available_of_fresh (henabled : s.config.harqEnabled = true)
    (hsound : s.downlink.harq.Sound) (hgrid : grid.rbgCount ≤ 32)
    (hb : b ∈ (fresh policy s grid feedback).sent) :
    ∃ p, (retries s grid feedback).harq.process? b.rnti b.grant.process = some p ∧
      p.isAvailable = true := by
  have hmem : b ∈ (fresh policy s grid feedback).sent.filter
      (·.isOn b.rnti b.grant.process) :=
    List.mem_filter.2 ⟨hb, DataGrant.isOn_iff.2 ⟨rfl, rfl⟩⟩
  have hup := uptake_fresh policy s grid feedback henabled hsound hgrid b.rnti b.grant.process
  generalize (fresh policy s grid feedback).sent.filter (·.isOn b.rnti b.grant.process) = sent
    at hup hmem
  generalize List.filter _ (fresh policy s grid feedback).feedback = kept at hup
  generalize (fresh policy s grid feedback).harq.process? b.rnti b.grant.process = P' at hup
  generalize (retries s grid feedback).harq.process? b.rnti b.grant.process = P at hup ⊢
  cases hup with
  | rests => cases hmem
  | @started p _ hp hav => exact ⟨p, hp, hav⟩

end DownlinkTrigger

/-- An accepted request keeps processes regular and dated. -/
theorem Tenured.of_step {q : Request} {said : List Indication} (h : Tenured es s)
    (hinv : s.Invariant config) (henabled : config.harqEnabled = true)
    (hstep : s.step policy q = .ok (s', said)) : Tenured (es ++ [⟨s, q, s', said⟩]) s' := by
  cases SchedulerState.effect_of_step hstep with
  | cell => exact h.frame rfl rfl .inr
  | added => exact h.frame rfl rfl (DownlinkHarq.free_or_of_process?_insert hinv.sound.separate)
  | released =>
    exact h.frame rfl rfl fun hp => .inr (DownlinkHarq.of_process?_erase hinv.sound.separate hp)
  | heard => exact h.frame rfl rfl .inr
  | downlink hgrid => exact DownlinkTrigger.tenured_event h hinv henabled hgrid
  | uplink => exact h.frame rfl rfl .inr
  | quiet hq hmove hsaid =>
    refine h.frame ?_ hsaid.1 fun hp => .inr (hmove.harq ▸ hp)
    cases q with
    | downlinkTrigger => cases hq
    | _ => rfl

/-- The process that a block of an event is put on is `q` after the retransmissions of the event. -/
def Event.Finds (e : Event Record) (b : DataGrant) (q : DownlinkProcess) : Prop :=
  ∃ grid, e.before.grid = some grid ∧
    (DownlinkTrigger.retries e.before grid e.received).harq.process? b.rnti b.grant.process = some q

/-- A new block is put on a process that is free or overdue when the retransmissions are over. -/
theorem SchedulerState.available_of_new {q : Request} {said : List Indication}
    (hinv : s.Invariant config) (henabled : config.harqEnabled = true)
    (hstep : s.step policy q = .ok (s', said)) {b : DataGrant} (hb : b ∈ said.flatMap (·.blocks))
    (hnew : b.isNew = true) :
    ∃ p, Event.Finds ⟨s, q, s', said⟩ b p ∧ (p.isFree = true ∨ harqTimeout ≤ p.timer) := by
  cases effect_of_step hstep with
  | @downlink feedback grid hgrid =>
    have hcount := hinv.rbgCount_le hgrid
    have hb : b ∈ DownlinkTrigger.data policy s grid feedback := by
      rwa [← DownlinkTrigger.blocks_event]
    obtain ⟨p, hp, hav⟩ := DownlinkTrigger.available_of_fresh (hinv.config ▸ henabled)
      hinv.sound hcount (DownlinkTrigger.mem_fresh_of_new hinv.sound hcount hb hnew)
    refine ⟨p, ⟨grid, hgrid, hp⟩, ?_⟩
    simpa [DownlinkProcess.isAvailable, DownlinkProcess.isFree] using hav
  | quiet _ _ hsaid => simp [hsaid.1] at hb
  | cell | added | released | heard | uplink =>
    simp [UplinkTrigger.decide, Indication.blocks] at hb

namespace Run

/-- The invariant holds all along a run. -/
theorem tenured (h : Run policy config es s) (henabled : config.harqEnabled = true) :
    Tenured es s := by
  refine h.invariant (P := Tenured) ?_ fun hrun htenured hstep =>
    htenured.of_step hrun.reachable.invariant henabled hstep
  intro r id p hp
  simp [SchedulerState.initial, DownlinkHarq.process?_empty] at hp

/-- A UE has all its processes. -/
theorem exists_process (h : Run policy config es s) (hr : r ∈ s.ues) (hid : id < harqProcesses) :
    ∃ p, s.downlink.harq.process? r id = some p := by
  have hstored := (h.reachable.invariant.sound.separate.mem_index.symm.trans
    (h.reachable.consistent.downlink.harq r)).2 hr
  obtain ⟨e, he⟩ := Option.isSome_iff_exists.1 hstored
  refine ⟨e.processes[id], ?_⟩
  rw [DownlinkHarq.process?, he, Option.bind_some, DownlinkEntity.process?,
    Vector.getElem?_eq_getElem hid]

/-- What has become of a block that was sent some subframes ago, if nothing else was sent on its
process since: it may be replaced after eleven subframes, not before, and is gone after twelve. -/
theorem lapse (h : Run policy config es s) (henabled : config.harqEnabled = true) {m : Nat}
    {b : DataGrant} (hlast : LastSent es r id m b)
    (hp : s.downlink.harq.process? r id = some p) :
    (p.isFree = false → (p.isAvailable = true ↔ subframesSince es m = harqTimeout)) ∧
      (harqTimeout ≤ subframesSince es m → p.isAvailable = true) ∧
      (harqTimeout < subframesSince es m → p = .free) := by
  obtain ⟨hregular, hdated⟩ := h.tenured henabled r id p hp
  cases hfree : p.isFree with
  | true =>
    obtain rfl := hregular.eq_free hfree
    exact ⟨fun hflight => Bool.noConfusion hflight, fun _ => rfl, fun _ => rfl⟩
  | false =>
    obtain ⟨m', b', hlast', hholds⟩ := hdated hfree
    obtain rfl := hlast.unique hlast'
    -- The timer of a block in flight never passes eleven.
    have hbound := hregular.bound.2
    rw [hholds.timer] at hbound
    have hav : p.isAvailable = true ↔ harqTimeout ≤ subframesSince es m := by
      have hstatus : p.status ≠ 0 := by simpa [DownlinkProcess.isFree] using hfree
      simp [DownlinkProcess.isAvailable, hholds.timer, hstatus]
    refine ⟨fun _ => hav.trans ⟨fun h => Nat.le_antisymm hbound h, fun h => Nat.le_of_eq h.symm⟩,
      hav.2, fun hlt => absurd hlt (Nat.not_lt.2 hbound)⟩

/-- In a cell with retransmissions, each process of a UE is free, with nothing left of any block,
or carries the block that was last sent on it: the grant of that block, in a version that tells how
often it was sent, with a timer that tells how many subframes ago. If nothing more is sent on it,
it may carry another block after eleven subframes, and is free after twelve. A new block is only
put on a process that is free or whose timer has reached eleven. -/
theorem processes_regular (h : Run policy config es s) (henabled : config.harqEnabled = true) :
    (∀ r ∈ s.ues, ∀ id < harqProcesses, ∃ p, s.downlink.harq.process? r id = some p ∧
      p.Regular r id ∧ (p.isFree = false → p.Dated es r id)) ∧
    (∀ (r : Rnti) (id m : Nat) (b : DataGrant) (p : DownlinkProcess), LastSent es r id m b →
      s.downlink.harq.process? r id = some p →
        (p.isFree = false → (p.isAvailable = true ↔ subframesSince es m = harqTimeout)) ∧
        (harqTimeout ≤ subframesSince es m → p.isAvailable = true) ∧
        (harqTimeout < subframesSince es m → p = .free)) ∧
    ∀ e ∈ es, ∀ b ∈ e.blocks, b.isNew = true →
      ∃ p, e.Finds b p ∧ (p.isFree = true ∨ harqTimeout ≤ p.timer) := by
  refine ⟨fun r hr id hid => ?_, fun r id m b p => h.lapse henabled, fun e he b hb hnew => ?_⟩
  · obtain ⟨p, hp⟩ := h.exists_process hr hid
    exact ⟨p, hp, h.tenured henabled r id p hp⟩
  · obtain ⟨n, hn⟩ := List.mem_iff_getElem?.1 he
    obtain ⟨hbefore, hstep⟩ := h.before_of_getElem? hn
    exact SchedulerState.available_of_new hbefore.reachable.invariant henabled hstep hb hnew

end Run

/-- In a cell with one group, a block fails once and is sent again, and nothing is heard of it any
more. -/
def sentTwice (silent : Nat) : List Request :=
  [.connect true true, .configureCell 6 6, .installReuse (.hard 6 6 ⟨0, 1⟩ ⟨0, 6⟩),
    .configureUe 1 .singleAntenna, .queue 1 0 ⟨0, 0, 0, 0, 2⟩, .downlinkTrigger [],
    .downlinkTrigger [⟨1, 1, [.nack]⟩]] ++
  List.replicate silent (.downlinkTrigger [])

/-- Eleven subframes after its second transmission the block may be replaced. -/
theorem processes_regular_sentTwice :
    ∃ (es : List (Event Throughput)) (s : SchedulerState Throughput) (p : DownlinkProcess) (m : Nat)
      (b : DataGrant), Run .tdBet .default es s ∧ s.downlink.harq.process? 1 1 = some p ∧
      p.status = 2 ∧ p.timer = 11 ∧ p.Regular 1 1 ∧ LastSent es 1 1 m b ∧
      p.grant = some b.grant ∧ subframesSince es m = 11 ∧ p.isAvailable = true := by
  obtain ⟨es, e, hrun, hstep, hcheck⟩ := Run.of_replay_step .tdBet .default (sentTwice 10)
    (.downlinkTrigger []) (fun _ e => e.after.ues.contains 1 &&
      (e.after.downlink.harq.process? 1 1).any fun p => p.status == 2 && p.timer == 11)
    (by decide +kernel)
  have hrun := hrun.step hstep
  simp only [Bool.and_eq_true, beq_iff_eq, Option.any_eq_true] at hcheck
  obtain ⟨hue, p, hp, hstatus, htimer⟩ := hcheck
  obtain ⟨hall, hlapse, -⟩ := hrun.processes_regular rfl
  obtain ⟨p', hp', hregular, hdated⟩ :=
    hall 1 (Std.ExtTreeMap.mem_iff_contains.2 hue) 1 (by decide)
  obtain rfl : p = p' := Option.some.inj (hp.symm.trans hp')
  obtain ⟨m, b, hlast, hholds⟩ := hdated (by simp [DownlinkProcess.isFree, hstatus])
  have hsince := hholds.timer.symm.trans htimer
  exact ⟨_, e.after, p, m, b, hrun, hp, hstatus, htimer, hregular, hlast, hholds.grant, hsince,
    (hlapse 1 1 m b p hlast hp).2.1 (Nat.le_of_eq hsince.symm)⟩

end LteMac
