import LteMac.Policy.Choice
import LteMac.Proofs.Downlink.Resending
import LteMac.Proofs.Downlink.Spectrum
import LteMac.Proofs.Downlink.Tables

/-!
# What a block of new data carries

The queues of a UE are drained while its block is put together, so the block has to account for what
is gone from them (`DataGrant.Carries`): each channel with something to send has a share of each
layer, the shares fit in the layers, and no channel loses more than its shares. A UE that is sent no
new data, for whatever reason, still has all that waited for it.

A share need not be used up. It goes to the status report of its channel if it is large enough for
that, else to what is to be sent again, else to new data, and what it does not fill is lost to the
UE; so between what is gone and what was given there is only an inequality (`RlcQueue.Drained`).
What is exact is who loses anything: the channels that are listed in the block, and of other UEs
nobody.

* `RlcQueue.drained_drain`: what a share takes from a queue;
* `NewData.getElem?_drainAll`: what the shares of all channels leave;
* `NewData.accounts_foldl_serve`: a pass accounts for what it took, by induction on the candidates
  from the back;
* `Reachable.payload_accounted`: so does every accepted downlink trigger.
-/

namespace LteMac

/-! ## One queue -/

namespace RlcQueue

variable {q q' q'' : RlcQueue} {n n' : Nat}

/-- A queue has something to send if it holds a byte. -/
theorem pending_iff : q.pending = true ↔ 0 < q.bytes := by
  simp only [pending, bytes, Bool.or_eq_true, decide_eq_true_eq]
  omega

/-- What is left of a queue whose channel was given `n` bytes: no part of it grew, and no more is
gone than was given. -/
structure Drained (n : Nat) (q q' : RlcQueue) : Prop where
  /-- The status report did not grow. -/
  status : q'.status ≤ q.status
  /-- What is to be sent again did not grow. -/
  retransmission : q'.retransmission ≤ q.retransmission
  /-- What is to be sent did not grow. -/
  transmission : q'.transmission ≤ q.transmission
  /-- No more is gone than was given. -/
  bytes : q.bytes ≤ q'.bytes + n

/-- Nothing is gone of a queue that was given nothing. -/
theorem Drained.refl (q : RlcQueue) : Drained 0 q q :=
  ⟨Nat.le_refl _, Nat.le_refl _, Nat.le_refl _, Nat.le_refl _⟩

/-- What is given one after the other adds up. -/
theorem Drained.trans (h : Drained n q q') (h' : Drained n' q' q'') : Drained (n + n') q q'' where
  status := Nat.le_trans h'.status h.status
  retransmission := Nat.le_trans h'.retransmission h.retransmission
  transmission := Nat.le_trans h'.transmission h.transmission
  bytes := by
    have hfirst := h.bytes
    have hsecond := h'.bytes
    omega

/-- A share takes from its queue what it has room for. -/
theorem drained_drain (lcid : Lcid) (q : RlcQueue) (size : Nat) :
    Drained size q (q.drain lcid size) := by
  rw [drain]
  split
  next hstatus =>
    simp only [Bool.and_eq_true, decide_eq_true_eq] at hstatus
    exact ⟨Nat.zero_le _, Nat.le_refl _, Nat.le_refl _, by simp only [bytes]; omega⟩
  next =>
    split
    next hretransmission =>
      simp only [Bool.and_eq_true, decide_eq_true_eq] at hretransmission
      exact ⟨Nat.le_refl _, Nat.zero_le _, Nat.le_refl _, by simp only [bytes]; omega⟩
    next => exact ⟨Nat.le_refl _, Nat.le_refl _, Nat.sub_le .., by simp only [bytes]; omega⟩

/-- So do shares one after the other. -/
theorem drained_foldl_drain (lcid : Lcid) (sizes : List Nat) (q : RlcQueue) :
    Drained (sumBy id sizes) q (sizes.foldl (drain lcid) q) := by
  induction sizes generalizing q with
  | nil => exact .refl q
  | cons size rest ih => exact (drained_drain lcid q size).trans (ih (q.drain lcid size))

end RlcQueue

/-! ## The shares of a block -/

namespace DataGrant

/-- Bytes of a block that a channel was given. -/
def bytesFor (b : DataGrant) (lcid : Lcid) : Nat :=
  sumBy (·.size) (b.pdus.flatten.filter (·.lcid == lcid))

/-- Bytes of a block that are given away on a layer. -/
def bytesOn (b : DataGrant) (layer : Nat) : Nat :=
  sumBy (fun row => row[layer]?.elim 0 (·.size)) b.pdus

/-- A block accounts for what became of its UE: before it the UE was `u`, and afterwards `u'`. -/
structure Carries {Record : Type} (b : DataGrant) (layers : Nat) (u u' : DownlinkUe Record) :
    Prop where
  /-- The channels with something to send are listed in ascending order, each with one share for
  each layer. -/
  channels : ∃ channels : List Lcid, channels.Pairwise (· < ·) ∧
    (∀ lcid, lcid ∈ channels ↔ ∃ q, u.queues[lcid]? = some q ∧ 0 < q.bytes) ∧
    b.pdus.map (·.map (·.lcid)) = channels.map (List.replicate layers)
  /-- There is a size for each layer. -/
  layers : b.grant.tbs.length = layers
  /-- The shares of a layer fit in its block. -/
  fits : ∀ layer tb, b.grant.tbs[layer]? = some tb → b.bytesOn layer ≤ tb
  /-- From each queue no more is gone than its channel was given. -/
  queues : ∀ lcid,
    Option.Rel (RlcQueue.Drained (b.bytesFor lcid)) u.queues[lcid]? u'.queues[lcid]?
  /-- The control elements that waited are in the block, and none waits afterwards. -/
  elements : b.elements = u.elements.getD .empty ∧ u'.elements = none

end DataGrant

namespace NewData

variable {queues : Table Lcid RlcQueue} {channels : List Lcid} {lcid : Lcid}

/-- The channels of a block are those with something to send. -/
theorem mem_activeChannels :
    lcid ∈ activeChannels queues ↔ ∃ q, queues[lcid]? = some q ∧ 0 < q.bytes := by
  rw [activeChannels, Std.ExtTreeMap.mem_keys, Std.ExtTreeMap.mem_iff_isSome_getElem?,
    Std.ExtTreeMap.getElem?_filter', Option.isSome_iff_exists]
  simp only [Option.filter_eq_some_iff, RlcQueue.pending_iff]

/-- Each channel was given its shares once. -/
theorem getElem?_drainAll (h : channels.Nodup) (queues : Table Lcid RlcQueue) (tbs : List Nat)
    (lcid : Lcid) :
    (drainAll queues channels tbs)[lcid]? =
      if lcid ∈ channels then
        queues[lcid]?.map ((tbs.map (· / channels.length)).foldl (RlcQueue.drain lcid))
      else queues[lcid]? := by
  rw [drainAll]
  -- The shares depend on the number of all channels, the induction is on those still to come.
  generalize channels.length = n
  induction channels generalizing queues with
  | nil => rfl
  | cons c cs ih =>
    obtain ⟨hc, hcs⟩ := List.nodup_cons.1 h
    refine (ih hcs _).trans ?_
    rw [Table.getElem?_modify]
    by_cases hlcid : lcid = c
    · subst hlcid
      simp [hc]
    · simp [hlcid]

/-- The bytes of a channel are those of its row. -/
theorem bytesFor_rows {row : Lcid → List Pdu} (hrow : ∀ c, ∀ pdu ∈ row c, pdu.lcid = c)
    (h : channels.Nodup) (lcid : Lcid) :
    sumBy (·.size) ((channels.map row).flatten.filter (·.lcid == lcid)) =
      if lcid ∈ channels then sumBy (·.size) (row lcid) else 0 := by
  induction channels with
  | nil => rfl
  | cons c cs ih =>
    obtain ⟨hc, hcs⟩ := List.nodup_cons.1 h
    rw [List.map_cons, List.flatten_cons, List.filter_append, sumBy_append, ih hcs]
    by_cases hlcid : lcid = c
    · subst hlcid
      rw [List.filter_eq_self.2 fun pdu hpdu => beq_iff_eq.2 (hrow lcid pdu hpdu), if_neg hc,
        if_pos List.mem_cons_self, Nat.add_zero]
    · have hnone : (row c).filter (·.lcid == lcid) = [] := by
        refine List.filter_eq_nil_iff.2 fun pdu hpdu heq => hlcid ?_
        rw [← beq_iff_eq.1 heq, hrow c pdu hpdu]
      simp [hnone, hlcid]

/-! ## One block -/

variable {Record : Type} {setting : Setting} {u : DownlinkUe Record} {r : Rnti} {rbgs : List Nat}
  {process : Nat} {round start : Round Record} {cs : List Rnti}

/-- A block carries what the pass took from the queues. -/
theorem Setting.carries_block (setting : Setting) (r : Rnti) (u : DownlinkUe Record)
    (rbgs : List Nat) (process : Nat) :
    (setting.block r u rbgs process).Carries (setting.layers r) u
      { u with
        queues := drainAll u.queues (activeChannels u.queues)
          (setting.block r u rbgs process).grant.tbs
        elements := none } := by
  have hnodup : (activeChannels u.queues).Nodup := Std.ExtTreeMap.nodup_keys
  have hpdus : (setting.block r u rbgs process).pdus = share (activeChannels u.queues)
      (setting.block r u rbgs process).grant.tbs := rfl
  have hlayers : (setting.block r u rbgs process).grant.tbs.length = setting.layers r := by
    simp [block, grant, layerCqis]
  have helements : (setting.block r u rbgs process).elements = u.elements.getD .empty := rfl
  -- From here on only the sizes of the layers count, whatever they were chosen for.
  generalize setting.block r u rbgs process = b at hpdus hlayers helements ⊢
  refine ⟨⟨_, Table.pairwise_keys _, fun _ => mem_activeChannels, ?_⟩, hlayers,
    fun layer tb htb => ?_, fun lcid => ?_, helements, rfl⟩
  · rw [hpdus, share, List.map_map]
    refine List.map_congr_left fun lcid _ => ?_
    rw [Function.comp_apply, List.map_map, ← hlayers]
    exact List.map_const' ..
  · rw [DataGrant.bytesOn, hpdus, share, sumBy_map]
    simp only [List.getElem?_map, htb, Option.map_some, Option.elim_some, sumBy_const]
    exact Nat.mul_div_le ..
  · have hbytes : b.bytesFor lcid = if lcid ∈ activeChannels u.queues then
        sumBy id (b.grant.tbs.map (· / (activeChannels u.queues).length)) else 0 := by
      rw [DataGrant.bytesFor, hpdus, share, bytesFor_rows (by simp) hnodup, sumBy_map, sumBy_map]
      rfl
    rw [getElem?_drainAll hnodup, hbytes]
    split
    · rcases u.queues[lcid]? with _ | q
      · exact .none
      · exact .some (RlcQueue.drained_foldl_drain ..)
    · rcases u.queues[lcid]? with _ | q
      · exact .none
      · exact .some (.refl q)

/-! ## A pass -/

/-- A pass over the candidates `cs` that began with `start` accounts for what it took. -/
structure Round.Accounts (setting : Setting) (round start : Round Record) (cs : List Rnti) :
    Prop where
  /-- Only candidates were served. -/
  named : ∀ b ∈ round.sent, b.rnti ∈ cs
  /-- Each block carries what is gone from its UE. -/
  sent : ∀ b ∈ round.sent, ∃ u u', start.ues[b.rnti]? = some u ∧ round.ues[b.rnti]? = some u' ∧
    b.Carries (setting.layers b.rnti) u u'
  /-- Who was not served keeps its record. -/
  others : ∀ r, (∀ b ∈ round.sent, b.rnti ≠ r) → round.ues[r]? = start.ues[r]?

/-- One more candidate, who was not served before. -/
theorem Round.Accounts.serve (h : round.Accounts setting start cs) (hnew : r ∉ cs)
    (proposal : Allocation) :
    (setting.serve proposal round r).Accounts setting start (cs ++ [r]) := by
  have hnamed : ∀ b ∈ round.sent, b.rnti ∈ cs ++ [r] :=
    fun b hb => List.mem_append_left _ (h.named b hb)
  obtain heq | ⟨u, process, harq, -, hu, -, heq⟩ := setting.skips_or_carries proposal round r
  · rw [heq]
    exact ⟨hnamed, h.sent, h.others⟩
  · rw [heq]
    generalize (claim setting.reuse r round.occupancy (proposal.getD r [])).2.mergeSort = rbgs
    -- The pass has sent nothing to this candidate before, so it is as it was at the start.
    have hfirst : ∀ b ∈ round.sent, b.rnti ≠ r := fun b hb hr => hnew (hr ▸ h.named b hb)
    refine ⟨List.forall_mem_append.2 ⟨hnamed, by simp [Setting.block]⟩,
      List.forall_mem_append.2 ⟨fun b hb => ?_, List.forall_mem_singleton.2 ?_⟩, fun r' hr' => ?_⟩
    · obtain ⟨v, v', hv, hv', hcarries⟩ := h.sent b hb
      exact ⟨v, v', hv, (Table.getElem?_insert.trans (if_neg (hfirst b hb))).trans hv', hcarries⟩
    · exact ⟨u, _, (h.others r hfirst).symm.trans hu, Table.getElem?_insert.trans (if_pos rfl),
        setting.carries_block r u rbgs process⟩
    · obtain ⟨hold, hlast⟩ := List.forall_mem_append.1 hr'
      have hne : r' ≠ r := (List.forall_mem_singleton.1 hlast).symm
      exact (Table.getElem?_insert.trans (if_neg hne)).trans (h.others r' hold)

/-- A pass over different candidates accounts for what it took. -/
theorem accounts_foldl_serve (setting : Setting) (proposal : Allocation)
    (hsent : start.sent = []) (hcs : cs.Nodup) :
    (cs.foldl (setting.serve proposal) start).Accounts setting start cs := by
  induction cs using List.reverseRecOn with
  | nil => exact ⟨by simp [hsent], by simp [hsent], fun _ _ => rfl⟩
  | append_singleton cs r ih =>
    obtain ⟨hcs, -, hnew⟩ := List.nodup_append.1 hcs
    rw [List.foldl_append, List.foldl_cons, List.foldl_nil]
    exact (ih hcs).serve (fun hr => hnew r hr r (List.mem_singleton_self r) rfl) proposal

end NewData

/-! ## A trigger -/

namespace DownlinkTrigger

variable {Record : Type} {policy : Policy Record} {s s' : SchedulerState Record} {grid : Grid}
  {feedback : List HarqFeedback}

/-- A decision accounts for what became of the queues from `s` to `s'`: they were drained for the
blocks of new data, and for nothing else. -/
structure Accounts (s s' : SchedulerState Record) (d : DownlinkDecision) : Prop where
  /-- Each block of new data carries what is gone from its UE. -/
  sent : ∀ b ∈ d.data, b.isNew = true → ∃ u u', s.downlink.ues[b.rnti]? = some u ∧
    s'.downlink.ues[b.rnti]? = some u' ∧ b.Carries (s.layers b.rnti) u u'
  /-- Who is sent no new data keeps all that waits, whether it had a turn or not. -/
  others : ∀ r, (∀ b ∈ d.data, b.isNew = true → b.rnti ≠ r) →
    (s'.downlink.ues[r]?.map fun u => (u.queues, u.elements)) =
      s.downlink.ues[r]?.map fun u => (u.queues, u.elements)

/-- A trigger accounts for what became of the queues: its retransmissions and answers take nothing
from them, so what is gone went into the blocks of new data. -/
theorem accounts_decide (hsound : s.downlink.harq.Sound) (hgrid : grid.rbgCount ≤ 32) :
    Accounts s (decide policy s grid feedback).1 (decision policy s grid feedback) := by
  obtain ⟨cs, hcs, -, proposal, heq⟩ := fresh_eq policy s grid feedback
  have haccounts : (fresh policy s grid feedback).Accounts (setting (opened s grid) grid)
      (start s grid feedback) cs := by
    rw [heq]
    exact NewData.accounts_foldl_serve _ proposal rfl hcs
  -- The averages take in the subframe, and the queues stay.
  have hrecorded : ∀ r : Rnti, (decide policy s grid feedback).1.downlink.ues[r]? =
      (fresh policy s grid feedback).ues[r]?.map _ := fun r => Std.ExtTreeMap.getElem?_map
  refine ⟨fun b hb hnew => ?_, fun r hr => ?_⟩
  · obtain ⟨u, u', hu, hu', hcarries⟩ :=
      haccounts.sent b (mem_fresh_of_new hsound hgrid hb hnew)
    exact ⟨u, _, hu, (hrecorded b.rnti).trans (congrArg (Option.map _) hu'), { hcarries with }⟩
  · have hfirst := (fair_fresh policy s grid feedback hsound hgrid).first
    have hold := haccounts.others r fun b hb =>
      hr b (List.mem_append_right _ hb) (hfirst b hb).isNew
    rw [hrecorded, hold, Option.map_map]
    rfl

end DownlinkTrigger

variable {Record : Type} {policy : Policy Record} {config : SchedulerConfig}
  {s s' : SchedulerState Record} {feedback : List HarqFeedback} {said : List Indication}

/-- In every reachable state, an accepted downlink trigger accounts for what became of the queues:
each block of new data carries what is gone from its UE, and a UE that is sent none keeps all that
waits for it. -/
theorem Reachable.payload_accounted (h : Reachable policy config s)
    (hstep : s.step policy (.downlinkTrigger feedback) = .ok (s', said)) :
    ∃ d, said = [.downlink d] ∧ DownlinkTrigger.Accounts s s' d := by
  have hinv := h.invariant
  cases SchedulerState.effect_of_step hstep with
  | quiet hq => cases hq
  | downlink hgrid =>
    exact ⟨_, rfl, DownlinkTrigger.accounts_decide hinv.sound (hinv.rbgCount_le hgrid)⟩

/-- A block waits for feedback. Another UE with something to receive cannot be reached, and a third
one has two layers and two channels. -/
def failedAndUnreachable : List Request :=
  [.connect true true, .configureCell 6 6, .installReuse (.hard 6 6 ⟨0, 1⟩ ⟨0, 6⟩),
    .configureUe 1 .openLoopSpatialMux, .configureUe 2 .singleAntenna,
    .configureUe 3 .singleAntenna, .queue 3 0 ⟨90, 0, 0, 0, 0⟩, .downlinkTrigger [],
    .installReuse (.hard 6 6 ⟨0, 3⟩ ⟨0, 6⟩), .configureBearers 1 [⟨3, none⟩],
    .queue 1 0 ⟨0, 0, 0, 0, 4⟩, .queue 1 3 ⟨200, 0, 10, 0, 0⟩, .queue 2 0 ⟨90, 0, 0, 0, 0⟩,
    .quality [⟨1, 2, .wideband, [9], []⟩, ⟨2, 1, .wideband, [0], []⟩]]

/-- The block that failed is sent again, the UE that cannot be reached is skipped, and both keep
what waits for them. Of the four shares of the third UE one takes the status report, one is too much
for its channel, one takes the retransmission, and 17 bytes of new data go into the last one. -/
theorem payload_accounted_failedAndUnreachable :
    ∃ (s s' : SchedulerState Throughput) (said : List Indication) (d : DownlinkDecision),
      Reachable (Algorithm.fdBet.policy .default) .default s ∧
      s.step (Algorithm.fdBet.policy .default) (.downlinkTrigger [⟨3, 1, [.nack]⟩]) =
        .ok (s', said) ∧
      said = [.downlink d] ∧ DownlinkTrigger.Accounts s s' d ∧
      d.data.map (fun b => (b.rnti, b.isNew, b.pdus)) =
        [(3, false, [[⟨0, 2⟩]]), (1, true, [[⟨0, 19⟩, ⟨0, 19⟩], [⟨3, 19⟩, ⟨3, 19⟩]])] ∧
      s'.downlink.ues.values.map (fun u => u.queues.values) =
        [[⟨0, 0, 0, 0, 0⟩, ⟨183, 0, 0, 0, 0⟩], [⟨90, 0, 0, 0, 0⟩], [⟨90, 0, 0, 0, 0⟩]] := by
  obtain ⟨es, e, hrun, hstep, hcheck⟩ := Run.of_replay_step (Algorithm.fdBet.policy .default)
    .default failedAndUnreachable (.downlinkTrigger [⟨3, 1, [.nack]⟩])
    (fun _ e => e.blocks.map (fun b => (b.rnti, b.isNew, b.pdus)) ==
        [(3, false, [[⟨0, 2⟩]]), (1, true, [[⟨0, 19⟩, ⟨0, 19⟩], [⟨3, 19⟩, ⟨3, 19⟩]])] &&
      e.after.downlink.ues.values.map (fun u => u.queues.values) ==
        [[⟨0, 0, 0, 0, 0⟩, ⟨183, 0, 0, 0, 0⟩], [⟨90, 0, 0, 0, 0⟩], [⟨90, 0, 0, 0, 0⟩]])
    (by decide +kernel)
  simp only [Bool.and_eq_true, beq_iff_eq] at hcheck
  obtain ⟨hblocks, hqueues⟩ := hcheck
  obtain ⟨d, hsaid, haccounts⟩ := hrun.reachable.payload_accounted hstep
  refine ⟨e.before, e.after, e.said, d, hrun.reachable, hstep, hsaid, haccounts, ?_, hqueues⟩
  simpa [Event.blocks, hsaid, Indication.blocks] using hblocks

end LteMac
