import LteMac.Proofs.Policy.Sharing
import LteMac.Proofs.Scheduler.Names

/-!
# Work conservation in the downlink

The policy offers the free groups to the candidates, and the cell sends new data to every UE that
was offered something, unless the quality of one of its groups is 0 on some layer. The policies do
not look out for that: they offer groups to a UE that cannot be reached, and what is offered to it
stays unused in that subframe, even if somebody else could have had it.

The policy and the pass that follows it share the work. What is offered is known from the policies:
different groups to different candidates, each of which may have them, and something if there is
something (`AllocationContext.Shares`). It is left to show that the pass takes the offers as they
are. A candidate claims all it was offered, as nobody else was offered the same; a process for it
was there when the candidates were chosen, and serving others takes none of its processes away. So
only the quality can be in the way, and a candidate that is skipped gives its groups back without
anybody being asked again.

* `NewData.Setting.Reaches`: a UE can be sent a block on some groups;
* `NewData.along_foldl_serve`: a pass serves exactly the candidates that their offers reach;
* `Reachable.work_conserving`: something is offered as soon as somebody may have something, and
  exactly those are sent new data whom their offers reach.
-/

namespace LteMac

/-- The quality that a grant counts on: that of the group, or of the whole band, or the one assumed
of a UE without a report. -/
def DownlinkQuality.cqi (q : DownlinkQuality) (r : Rnti) (rbg layer : Nat) : Nat :=
  (q.effective? r rbg layer).getD defaultCqi

namespace NewData

open Retransmission (usable usable_iff)

variable {Record : Type} {setting : Setting} {a : Allocation} {r : Rnti}
  {round : Round Record}

/-- A UE can be sent a block on the given groups: there are some, and no quality is 0. -/
def Setting.Reaches (setting : Setting) (r : Rnti) (rbgs : List Nat) : Prop :=
  rbgs ≠ [] ∧ ∀ layer < setting.layers r, ∀ i ∈ rbgs, setting.quality.cqi r i layer ≠ 0

/-! ## One candidate -/

/-- All the groups proposed are claimed, if each of them is usable. -/
theorem claim_of_usable {reuse : ReusePolicy} {o : Occupancy} {proposed : List Nat}
    (hnodup : proposed.Nodup) (husable : ∀ i ∈ proposed, usable reuse o r i = true) :
    claim reuse r o proposed = (o.occupy proposed, proposed) := by
  induction proposed generalizing o with
  | nil => rfl
  | cons rbg rest ih =>
    obtain ⟨hnew, hrest⟩ := List.nodup_cons.1 hnodup
    obtain ⟨hrbg, husable⟩ := List.forall_mem_cons.1 husable
    have hlater : ∀ i ∈ rest, usable reuse (o.occupy [rbg]) r i = true := fun i hi => by
      obtain ⟨hfree, hallowed⟩ := usable_iff.1 (husable i hi)
      refine usable_iff.2 ⟨?_, hallowed⟩
      have hne : i ≠ rbg := fun heq => hnew (heq ▸ hi)
      simp [Occupancy.isFree_occupy, hfree, hne]
    rw [claim, if_pos hrbg, ih hrest hlater]
    rfl

/-- A layer has no usable quality if the worst of its groups has none. -/
theorem zero_mem_layerCqis (setting : Setting) (r : Rnti) {rbgs : List Nat} (hne : rbgs ≠ []) :
    (setting.layerCqis r rbgs).contains 0 = true ↔
      ∃ layer < setting.layers r, ∃ i ∈ rbgs, setting.quality.cqi r i layer = 0 := by
  simp only [Setting.layerCqis, List.contains_iff_mem, List.mem_map, List.mem_range]
  refine exists_congr fun layer => and_congr_right fun _ => ?_
  obtain ⟨cqi, hcqi⟩ : ∃ cqi, (rbgs.map fun rbg =>
      (setting.quality.effective? r rbg layer).getD defaultCqi).min? = some cqi :=
    Option.isSome_iff_exists.1 (List.isSome_min?_iff.2 (mt List.map_eq_nil_iff.1 hne))
  rw [Setting.layerCqi, hcqi, Option.getD_some]
  obtain ⟨hmem, hle⟩ := List.min?_eq_some_iff.1 hcqi
  constructor
  · rintro rfl
    exact List.mem_map.1 hmem
  · rintro ⟨i, hi, hzero⟩
    exact Nat.le_zero.1 (hzero ▸ hle _ (List.mem_map_of_mem hi))

/-- The order of the groups does not matter. -/
theorem Setting.reaches_perm {rbgs rbgs' : List Nat} (h : rbgs.Perm rbgs') :
    setting.Reaches r rbgs ↔ setting.Reaches r rbgs' := by
  simp only [Reaches, h.mem_iff, ne_eq, ← List.length_eq_zero_iff, h.length_eq]

/-- From `round` to `round'`, the UE `r` is sent a block on the groups `rbgs`. -/
structure Round.Sends (setting : Setting) (r : Rnti) (rbgs : List Nat)
    (round round' : Round Record) : Prop where
  /-- One more block is sent, to this UE. -/
  sent : ∃ b : DataGrant, b.rnti = r ∧ round'.sent = round.sent ++ [b]
  /-- Its groups are taken. -/
  occupancy : round'.occupancy = round.occupancy.occupy rbgs
  /-- The UEs keep slots of their own. -/
  separate : round.harq.Separate → round'.harq.Separate
  /-- The processes of other UEs do not change. -/
  others : round.harq.Separate → ∀ r', r' ≠ r → ∀ id,
    round'.harq.process? r' id = round.harq.process? r' id

/-- A UE with a process for a block is sent one, unless a quality is 0. -/
theorem send?_cases (setting : Setting) (round : Round Record) (r : Rnti) (u : DownlinkUe Record)
    {rbgs : List Nat} (hne : rbgs ≠ [])
    (hprocess : ∃ out, setting.process? round.harq r = some out) :
    setting.send? round r u rbgs = none ∧ ¬setting.Reaches r rbgs ∨
      ∃ out, setting.send? round r u rbgs = some out ∧ setting.Reaches r rbgs ∧
        round.Sends setting r [] out := by
  obtain ⟨⟨id, harq⟩, hprocess⟩ := hprocess
  have hzero := zero_mem_layerCqis setting r hne
  unfold Setting.send?
  dsimp only
  -- The only reason for which a block is not sent is a group without quality among its own.
  split
  next hcontains =>
    refine .inl ⟨rfl, fun hreaches => ?_⟩
    obtain ⟨layer, hlayer, i, hi, hcqi⟩ := hzero.1 hcontains
    exact hreaches.2 layer hlayer i hi hcqi
  next hcontains =>
    rw [hprocess]
    refine .inr ⟨_, rfl, ⟨hne, fun layer hlayer i hi hcqi => ?_⟩,
      ⟨_, rfl, rfl⟩, rfl, fun hsep => ?_, fun hsep r' hne id' => ?_⟩
    · exact hcontains (hzero.2 ⟨layer, hlayer, i, hi, hcqi⟩)
    · have hsep' : harq.Separate := Setting.separate_of_process? hsep hprocess
      dsimp only
      split
      · exact hsep'.set
      · exact hsep'
    · obtain ⟨hon, hadv⟩ | ⟨hoff, -, rfl⟩ := Setting.process?_eq_some hprocess
      · obtain ⟨hsep', -, hproc⟩ := DownlinkHarq.advance?_eq_some hsep hadv
        rw [if_pos hon, DownlinkHarq.process?_set hsep', if_neg fun h => hne h.1, hproc,
          if_neg fun h => hne h.1]
      · rw [hoff]
        rfl

/-- A candidate with a process for a block is sent one on what it is offered, or is skipped
because its offer does not reach it. -/
theorem serve_cases {u : DownlinkUe Record} (hu : round.ues[r]? = some u)
    (hprocess : ∃ out, setting.process? round.harq r = some out) (hnodup : (a.offer r).Nodup)
    (husable : ∀ i ∈ a.offer r, usable setting.reuse round.occupancy r i = true) :
    setting.serve a round r = round ∧ ¬setting.Reaches r (a.offer r) ∨
      setting.Reaches r (a.offer r) ∧
        round.Sends setting r (a.offer r) (setting.serve a round r) := by
  have hperm : (a.offer r).mergeSort.Perm (a.offer r) := List.mergeSort_perm ..
  have hclaim : claim setting.reuse r round.occupancy (a.getD r []) =
      (round.occupancy.occupy (a.offer r), a.offer r) := claim_of_usable hnodup husable
  -- The groups are claimed in the order of the offer and sent in ascending order, which is all the
  -- same to whether the UE can be reached.
  rw [← setting.reaches_perm hperm]
  simp only [Setting.serve, hclaim, hu]
  split
  next hempty => exact .inl ⟨rfl, fun h => h.1 (List.isEmpty_iff.1 hempty)⟩
  next hne =>
    obtain ⟨hsend, hnot⟩ | ⟨out, hsend, hreaches, hsends⟩ := send?_cases setting
      { round with occupancy := round.occupancy.occupy (a.offer r) } r u
      (mt List.isEmpty_iff.2 hne) hprocess
    · rw [hsend]
      exact .inl ⟨rfl, hnot⟩
    · rw [hsend]
      exact .inr ⟨hreaches, { hsends with }⟩

/-- A UE that is offered nothing is skipped. -/
theorem serve_of_offer_nil (h : a.offer r = []) : setting.serve a round r = round := by
  replace h : a.getD r [] = [] := h
  rw [Setting.serve, h]
  dsimp only [claim]
  split
  · rfl
  · simp

/-- There is a process for a new block of a UE with an available one. -/
theorem exists_process? (setting : Setting) {harq : DownlinkHarq}
    (h : setting.harqEnabled = true → harq.isAvailable r = true) :
    ∃ out, setting.process? harq r = some out := by
  unfold Setting.process?
  split
  next hon => exact DownlinkHarq.exists_advance? (h hon)
  next => exact ⟨_, rfl⟩

/-! ## A pass over the candidates -/

/-- Groups that can be offered to candidates: different ones to each of them, which it may have. -/
structure Proper (setting : Setting) (o : Occupancy) (a : Allocation) : Prop where
  /-- No group is offered to a UE twice. -/
  nodup : ∀ r, (a.offer r).Nodup
  /-- A group that is offered is free, and the UE may have it. -/
  usable : ∀ r, ∀ i ∈ a.offer r, Retransmission.usable setting.reuse o r i = true
  /-- No group is offered to two UEs. -/
  apart : ∀ r r', r ≠ r' → (a.offer r).Disjoint (a.offer r')

/-- A pass once the candidates `cs` had their turns: what was offered to none of them is still
there, the processes of the others are as they were, and those are served whom their offers
reach. -/
structure Round.Along (setting : Setting) (a : Allocation) (round start : Round Record)
    (cs : List Rnti) : Prop where
  /-- Every UE has a slot of its own. -/
  separate : round.harq.Separate
  /-- Free groups that were offered to nobody yet are still free. -/
  free : ∀ i, start.occupancy.isFree i = true → (∀ c ∈ cs, i ∉ a.offer c) →
    round.occupancy.isFree i = true
  /-- Who had no turn yet has the processes of the beginning. -/
  resting : ∀ r ∉ cs, ∀ id, round.harq.process? r id = start.harq.process? r id
  /-- Among those who had a turn, who was sent a block is whom the offer reaches. -/
  served : ∀ r, (∃ b ∈ round.sent, b.rnti = r) ↔ r ∈ cs ∧ setting.Reaches r (a.offer r)

namespace Round.Along

variable {start round' : Round Record} {cs : List Rnti} {c : Rnti}

/-- Nobody had a turn yet. -/
theorem begins (hsep : start.harq.Separate) (hsent : start.sent = []) :
    start.Along setting a start [] := by
  refine ⟨hsep, fun i hi _ => hi, fun r _ id => rfl, fun r => ?_⟩
  simp [hsent]

/-- The next candidate is skipped, because its offer does not reach it. -/
theorem skip (h : round.Along setting a start cs)
    (hnot : ¬setting.Reaches c (a.offer c)) : round.Along setting a start (cs ++ [c]) where
  separate := h.separate
  free i hi hcs := h.free i hi fun c' hc' => hcs c' (List.mem_append_left _ hc')
  resting r hr := h.resting r fun hmem => hr (List.mem_append_left _ hmem)
  served r := by
    rw [h.served r, List.mem_append, List.mem_singleton]
    refine and_congr_left fun hreaches => (or_iff_left ?_).symm
    rintro rfl
    exact hnot hreaches

/-- The next candidate is served, because its offer reaches it. -/
theorem serve (h : round.Along setting a start cs) (hreaches : setting.Reaches c (a.offer c))
    (hsends : round.Sends setting c (a.offer c) round') :
    round'.Along setting a start (cs ++ [c]) where
  separate := hsends.separate h.separate
  free i hi hcs := by
    obtain ⟨hcs, hc⟩ := List.forall_mem_append.1 hcs
    rw [hsends.occupancy, Occupancy.isFree_occupy, h.free i hi hcs]
    simpa using hc
  resting r hr id := by
    rw [List.mem_append, List.mem_singleton, not_or] at hr
    rw [hsends.others h.separate r hr.2, h.resting r hr.1]
  served r := by
    obtain ⟨b, rfl, hsent⟩ := hsends.sent
    simp only [hsent, List.mem_append, List.mem_singleton, or_and_right, exists_or, h.served r,
      exists_eq_left]
    refine or_congr_right ⟨?_, fun h => h.1.symm⟩
    rintro rfl
    exact ⟨rfl, hreaches⟩

end Round.Along

/-- A pass serves exactly the candidates that their offers reach. -/
theorem along_foldl_serve {start : Round Record} {ues : Table Rnti Ue} {cs : List Rnti}
    (hproper : Proper setting start.occupancy a) (hsep : start.harq.Separate)
    (hsent : start.sent = []) (hrecords : DownlinkTable.Fits ues start.ues)
    (hcs : cs.Nodup) (hknown : ∀ c ∈ cs, c ∈ ues)
    (hav : setting.harqEnabled = true → ∀ c ∈ cs, start.harq.isAvailable c = true) :
    (cs.foldl (setting.serve a) start).Along setting a start cs := by
  induction cs using List.reverseRecOn with
  | nil => exact .begins hsep hsent
  | append_singleton cs c ih =>
    obtain ⟨hcs, -, hnew⟩ := List.nodup_append.1 hcs
    have hnew : c ∉ cs := fun hc => hnew c hc c (by simp) rfl
    obtain ⟨hknown, hc⟩ := List.forall_mem_append.1 hknown
    have hlong := ih hcs hknown fun hon => (List.forall_mem_append.1 (hav hon)).1
    -- The candidate is known, and nobody before it took its groups or its process.
    have hfits : (cs.foldl (setting.serve a) start).Fits ues start.harq.index fun _ => True :=
      Round.Fits.foldl_serve ⟨hrecords, rfl, fun _ _ => trivial⟩ a cs
    obtain ⟨u, hu⟩ := Table.exists_of_mem ((hfits.records.keys c).2 (hc c (by simp)))
    have hprocess : ∃ out,
        setting.process? (cs.foldl (setting.serve a) start).harq c = some out := by
      refine exists_process? setting fun hon => ?_
      obtain ⟨id, p, hp, hfree⟩ := DownlinkHarq.isAvailable_iff.1 (hav hon c (by simp))
      exact DownlinkHarq.isAvailable_iff.2 ⟨id, p, (hlong.resting c hnew id).trans hp, hfree⟩
    have husable : ∀ i ∈ a.offer c, usable setting.reuse
        (cs.foldl (setting.serve a) start).occupancy c i = true := fun i hi => by
      obtain ⟨hfree, hallowed⟩ := usable_iff.1 (hproper.usable c i hi)
      refine usable_iff.2 ⟨hlong.free i hfree fun c' hc' hi' => ?_, hallowed⟩
      exact hproper.apart c' c (fun heq => hnew (heq ▸ hc')) hi' hi
    rw [List.foldl_append, List.foldl_cons, List.foldl_nil]
    obtain ⟨heq, hnot⟩ | ⟨hreaches, hsends⟩ :=
      serve_cases hu hprocess (hproper.nodup c) husable
    · rw [heq]
      exact hlong.skip hnot
    · exact hlong.serve hreaches hsends

end NewData

/-- A group is free if it is marked so. -/
theorem Occupancy.flagAt_toList (o : Occupancy) (i : Nat) :
    flagAt o.free.toList i = o.isFree i := by
  rw [flagAt, isFree, List.getD_eq_getElem?_getD, Array.getElem?_toList,
    Array.getD_eq_getD_getElem?]

/-! ## A trigger -/

namespace DownlinkTrigger

open Retransmission (usable usable_iff)

variable {Record : Type} (policy : Policy Record) (s : SchedulerState Record) (grid : Grid)
  (feedback : List HarqFeedback)

/-- What the policy offers in a trigger, of what paging and retransmissions left. -/
def offers : Allocation :=
  proposal policy (opened s grid) grid (retries s grid feedback).occupancy (turns s grid feedback)

/-- What new data are sent with in a trigger. -/
def terms : NewData.Setting := setting (opened s grid) grid

/-- Whether a group is left for a UE once paging and retransmissions have taken theirs. -/
def leaves (r : Rnti) (i : Nat) : Bool :=
  usable s.reuse (retries s grid feedback).occupancy r i

/-- How the groups that are left are shared among the UEs with a turn, and who is sent new data. -/
structure Conserving (a : Allocation) : Prop where
  /-- Whoever is offered something has a turn, and may have it. -/
  offered : ∀ r, ∀ i ∈ a.offer r,
    r ∈ turns s grid feedback ∧ leaves s grid feedback r i = true
  /-- No group is offered to two UEs. -/
  apart : ∀ r r', r ≠ r' → (a.offer r).Disjoint (a.offer r')
  /-- Something is offered to somebody, if something is left for somebody with a turn. -/
  conserves : ∀ r ∈ turns s grid feedback, ∀ i, leaves s grid feedback r i = true →
    ∃ r', a.offer r' ≠ []
  /-- New data go to those whom their offers reach. -/
  served : ∀ r, (∃ b ∈ data policy s grid feedback, b.rnti = r ∧ b.isNew = true) ↔
    (terms s grid).Reaches r (a.offer r)

variable {s grid}

/-- The policy may offer what is left. -/
theorem allowed_context {r : Rnti} {i : Nat} :
    (context (opened s grid) grid (retries s grid feedback).occupancy).allowed i r =
      leaves s grid feedback r i := by
  rw [AllocationContext.allowed, context, Occupancy.flagAt_toList]
  rfl

/-- What the policy offers has the properties of a shared allocation. -/
theorem shares_offers {algorithm : Algorithm} {config : SchedulerConfig}
    {s : SchedulerState algorithm.Record} :
    (context (opened s grid) grid (retries s grid feedback).occupancy).Shares
      (turns s grid feedback) (offers (algorithm.policy config) s grid feedback) :=
  Algorithm.shares_policy ..

variable {algorithm : Algorithm} (config : SchedulerConfig) {s : SchedulerState algorithm.Record}

/-- What the policy offers can be offered. -/
theorem proper_offers : NewData.Proper (terms s grid) (retries s grid feedback).occupancy
    (offers (algorithm.policy config) s grid feedback) where
  nodup := (shares_offers feedback).nodup
  usable r i hi :=
    (allowed_context feedback).symm.trans ((shares_offers feedback).allowed r i hi)
  apart := (shares_offers feedback).apart

/-- The stage of new data is a pass over all UEs with a turn. -/
theorem fresh_eq_pass : fresh (algorithm.policy config) s grid feedback =
    (turns s grid feedback).foldl
      ((terms s grid).serve (offers (algorithm.policy config) s grid feedback))
      (start s grid feedback) := by
  unfold fresh sendNew
  split
  next hnobody =>
    -- Nothing can be offered then, so the pass does nothing.
    have hnone : ∀ r, (offers (algorithm.policy config) s grid feedback).offer r = [] := by
      intro r
      by_contra hne
      obtain ⟨i, hi⟩ := List.exists_mem_of_ne_nil _ hne
      have hfree := Occupancy.mem_freeBlocks.2
        (usable_iff.1 ((proper_offers feedback config).usable r i hi)).1
      simp [List.ne_nil_of_mem ((shares_offers feedback).named r hne), List.ne_nil_of_mem hfree]
        at hnobody
    exact (List.foldlRecOn (motive := (· = start s grid feedback)) _ _ rfl
      fun round hround r _ => hround ▸ NewData.serve_of_offer_nil (hnone r)).symm
  · rfl

/-- The stage of new data serves exactly those whom their offers reach. -/
theorem along_fresh (hsound : s.downlink.harq.Sound) (hgrid : grid.rbgCount ≤ 32)
    (hrecords : DownlinkTable.Fits s.ues s.downlink.ues) :
    (fresh (algorithm.policy config) s grid feedback).Along (terms s grid)
      (offers (algorithm.policy config) s grid feedback) (start s grid feedback)
      (turns s grid feedback) := by
  rw [fresh_eq_pass]
  exact NewData.along_foldl_serve (proper_offers feedback config)
    (fair_retries s grid feedback hsound hgrid).sound.separate rfl hrecords
    (nodup_turns s grid feedback) (fun c hc => (of_mem_turns feedback hc).1)
    fun hon c hc => (of_mem_turns feedback hc).2 hon

/-- So a trigger shares what is left as described. -/
theorem conserving_decide (hsound : s.downlink.harq.Sound) (hgrid : grid.rbgCount ≤ 32)
    (hrecords : DownlinkTable.Fits s.ues s.downlink.ues) :
    Conserving (algorithm.policy config) s grid feedback
      (offers (algorithm.policy config) s grid feedback) := by
  -- The algorithm keeps its side by its contract, and the pass serves whom the offers reach.
  have hshares : (context (opened s grid) grid (retries s grid feedback).occupancy).Shares
      (turns s grid feedback) (offers (algorithm.policy config) s grid feedback) :=
    shares_offers feedback
  refine ⟨fun r i hi => ⟨?_, ?_⟩, hshares.apart, fun r hr i hi => ?_, fun r => ?_⟩
  · exact hshares.named r (List.ne_nil_of_mem hi)
  · exact (allowed_context feedback).symm.trans (hshares.allowed r i hi)
  · exact hshares.conserves i r hr ((allowed_context feedback).trans hi)
  · have hfresh := fair_fresh (algorithm.policy config) s grid feedback hsound hgrid
    have hserved := (along_fresh feedback config hsound hgrid hrecords).served r
    -- The new blocks of the decision are those of the last pass, and each of them is a first one.
    constructor
    · rintro ⟨b, hb, rfl, hnew⟩
      exact (hserved.1 ⟨b, mem_fresh_of_new hsound hgrid hb hnew, rfl⟩).2
    · intro hreaches
      have hturn := hshares.named r hreaches.1
      obtain ⟨b, hb, hr⟩ := hserved.2 ⟨hturn, hreaches⟩
      exact ⟨b, List.mem_append_right _ hb, hr, (hfresh.first b hb).isNew⟩

end DownlinkTrigger

/-- An accepted downlink trigger says what it decides. -/
theorem SchedulerState.decision_of_step {Record : Type} {policy : Policy Record}
    {s s' : SchedulerState Record} {feedback : List HarqFeedback} {said : List Indication}
    (hstep : s.step policy (.downlinkTrigger feedback) = .ok (s', said)) :
    ∃ grid, s.grid = some grid ∧
      said = [.downlink (DownlinkTrigger.decision policy s grid feedback)] := by
  cases effect_of_step hstep with
  | quiet hq => cases hq
  | downlink hgrid => exact ⟨_, hgrid, rfl⟩

/-- If every UE with a turn can be reached on all that is left for it, and something is left for one
of them, then somebody is sent new data. -/
theorem DownlinkTrigger.Conserving.somebody {Record : Type} {policy : Policy Record}
    {s : SchedulerState Record} {grid : Grid} {feedback : List HarqFeedback} {a : Allocation}
    (h : Conserving policy s grid feedback a) {r : Rnti} (hr : r ∈ turns s grid feedback) {i : Nat}
    (hi : leaves s grid feedback r i = true)
    (hall : ∀ r ∈ turns s grid feedback, ∀ layer < (terms s grid).layers r, ∀ i,
      leaves s grid feedback r i = true → (terms s grid).quality.cqi r i layer ≠ 0) :
    ∃ b ∈ data policy s grid feedback, b.isNew = true := by
  obtain ⟨w, hw⟩ := h.conserves r hr i hi
  obtain ⟨j, hj⟩ := List.exists_mem_of_ne_nil _ hw
  have hturn := (h.offered w j hj).1
  obtain ⟨b, hb, -, hnew⟩ := (h.served w).2
    ⟨hw, fun layer hlayer i hi => hall w hturn layer hlayer i (h.offered w i hi).2⟩
  exact ⟨b, hb, hnew⟩

/-- Whatever the algorithm, an accepted trigger offers what paging and retransmissions left to the
UEs with a turn, and sends new data to exactly those whom their offers reach. So somebody is sent
some if something is left for a UE with a turn, and nobody with a turn has a quality of 0 on what is
left for it. The last condition cannot be dropped: an offer that does not reach its UE is not made
to another one. -/
theorem Reachable.work_conserving {algorithm : Algorithm} {config : SchedulerConfig}
    {s s' : SchedulerState algorithm.Record} {feedback : List HarqFeedback}
    {said : List Indication} (h : Reachable (algorithm.policy config) config s)
    (hstep : s.step (algorithm.policy config) (.downlinkTrigger feedback) = .ok (s', said)) :
    ∃ grid, s.grid = some grid ∧
      said = [.downlink (DownlinkTrigger.decision (algorithm.policy config) s grid feedback)] ∧
      DownlinkTrigger.Conserving (algorithm.policy config) s grid feedback
        (DownlinkTrigger.offers (algorithm.policy config) s grid feedback) ∧
      ∀ r ∈ DownlinkTrigger.turns s grid feedback,
        (∃ i, DownlinkTrigger.leaves s grid feedback r i = true) →
        (∀ r ∈ DownlinkTrigger.turns s grid feedback,
          ∀ layer < (DownlinkTrigger.terms s grid).layers r, ∀ i,
            DownlinkTrigger.leaves s grid feedback r i = true →
              (DownlinkTrigger.terms s grid).quality.cqi r i layer ≠ 0) →
        ∃ b ∈ DownlinkTrigger.data (algorithm.policy config) s grid feedback, b.isNew = true := by
  have hinv := h.invariant
  obtain ⟨grid, hgrid, hsaid⟩ := SchedulerState.decision_of_step hstep
  have hconserving := DownlinkTrigger.conserving_decide feedback config hinv.sound
    (hinv.rbgCount_le hgrid) h.consistent.downlink.records
  exact ⟨grid, hgrid, hsaid, hconserving,
    fun r hr ⟨i, hi⟩ hall => hconserving.somebody hr hi hall⟩

/-- Quality reports for the whole band of two UEs, one of which cannot be reached. -/
def oneUnreachable : List CqiReport := [⟨1, 1, .wideband, [0], []⟩, ⟨2, 1, .wideband, [10], []⟩]

/-- A cell with a band of some groups, in which two UEs with such reports have something to
receive. -/
def unreachableBesideReachable (groups : Nat) : List Request :=
  [.connect true true, .configureCell 6 6, .installReuse (.hard 6 6 ⟨0, groups⟩ ⟨0, 6⟩),
    .configureUe 1 .singleAntenna, .configureUe 2 .singleAntenna, .quality oneUnreachable,
    .queue 1 0 ⟨500, 0, 0, 0, 0⟩, .queue 2 0 ⟨500, 0, 0, 0, 0⟩]

/-- The turn of a UE that cannot be reached wastes a subframe, although another UE with a turn could
be sent something on any group. There is one group only, it is offered to the first UE, and once it
turns out that the block would have no bits, the group is given back but offered to nobody else. -/
theorem subframe_wasted_on_unreachable :
    ∃ (s s' : SchedulerState Throughput) (grid : Grid),
      Reachable (Algorithm.tdBet.policy .default) .default s ∧ s.grid = some grid ∧
      s.step (Algorithm.tdBet.policy .default) (.downlinkTrigger []) =
        .ok (s', [.downlink (DownlinkTrigger.decision .tdBet s grid [])]) ∧
      2 ∈ DownlinkTrigger.turns s grid [] ∧
      (∃ i, DownlinkTrigger.leaves s grid [] 2 i = true) ∧
      (∀ layer < (DownlinkTrigger.terms s grid).layers 2, ∀ i < grid.rbgCount,
        (DownlinkTrigger.terms s grid).quality.cqi 2 i layer ≠ 0) ∧
      ¬∃ b ∈ (DownlinkTrigger.decision .tdBet s grid []).data, b.isNew = true := by
  obtain ⟨es, e, hrun, hstep, hcheck⟩ := Run.of_replay_step (Algorithm.tdBet.policy .default)
    .default (unreachableBesideReachable 1) (.downlinkTrigger [])
    (fun _ e => e.before.grid.any fun grid =>
      (DownlinkTrigger.turns e.before grid []).contains 2 &&
      DownlinkTrigger.leaves e.before grid [] 2 0 &&
      ((List.range ((DownlinkTrigger.terms e.before grid).layers 2)).all fun layer =>
        (List.range grid.rbgCount).all fun i =>
          (DownlinkTrigger.terms e.before grid).quality.cqi 2 i layer != 0) &&
      !(DownlinkTrigger.data (Algorithm.tdBet.policy .default) e.before grid []).any (·.isNew))
    (by decide +kernel)
  obtain ⟨grid, hgrid, hsaid⟩ := SchedulerState.decision_of_step hstep
  rw [hsaid] at hstep
  simp only [hgrid, Option.any_some, Bool.and_eq_true, List.contains_iff_mem, List.all_eq_true,
    List.mem_range, bne_iff_ne, Bool.not_eq_true', List.any_eq_false] at hcheck
  obtain ⟨⟨⟨hturn, hleft⟩, hcqi⟩, hnone⟩ := hcheck
  exact ⟨e.before, e.after, grid, hrun.reachable, hgrid, hstep, hturn, ⟨0, hleft⟩, hcqi,
    fun ⟨b, hb, hnew⟩ => hnone b hb hnew⟩

/-- Of two UEs that are offered something, only the one that can be reached is served. -/
theorem work_conserving_unreachable :
    ∃ (s s' : SchedulerState Throughput) (grid : Grid) (said : List Indication),
      Reachable (Algorithm.fdBet.policy .default) .default s ∧
      s.step (Algorithm.fdBet.policy .default) (.downlinkTrigger []) = .ok (s', said) ∧
      s.grid = some grid ∧
      said = [.downlink (DownlinkTrigger.decision .fdBet s grid [])] ∧
      DownlinkTrigger.Conserving (Algorithm.fdBet.policy .default) s grid []
        (DownlinkTrigger.offers .fdBet s grid []) ∧
      (DownlinkTrigger.offers .fdBet s grid []).offer 1 = [0] ∧
      (DownlinkTrigger.offers .fdBet s grid []).offer 2 = [1] ∧
      (DownlinkTrigger.data .fdBet s grid []).map (·.rnti) = [2] := by
  obtain ⟨es, e, hrun, hstep, hcheck⟩ := Run.of_replay_step (Algorithm.fdBet.policy .default)
    .default (unreachableBesideReachable 2) (.downlinkTrigger [])
    (fun _ e => e.before.grid.any fun grid =>
      (DownlinkTrigger.offers .fdBet e.before grid []).offer 1 == [0] &&
      (DownlinkTrigger.offers .fdBet e.before grid []).offer 2 == [1] &&
      (DownlinkTrigger.data .fdBet e.before grid []).map (·.rnti) == [2])
    (by decide +kernel)
  obtain ⟨grid, hgrid, hsaid, hconserving, -⟩ := hrun.reachable.work_conserving hstep
  simp only [hgrid, Option.any_some, Bool.and_eq_true, beq_iff_eq] at hcheck
  obtain ⟨⟨hfirst, hsecond⟩, hdata⟩ := hcheck
  exact ⟨e.before, e.after, grid, e.said, hrun.reachable, hstep, hgrid, hsaid, hconserving, hfirst,
    hsecond, hdata⟩

end LteMac
