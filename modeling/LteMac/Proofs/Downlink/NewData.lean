import LteMac.Proofs.Downlink.Handout
import Mathlib.Data.List.Induction

/-!
# The pass over the candidates

A candidate is skipped, and then nothing changes, or is sent one new block on free groups that it
may have, carried by a process that was available (`NewData.Served`).

There are many ways of being skipped: the policy offered nothing, all that was offered is taken or
not allowed, a layer has no usable quality, or no process is free. The program undoes the claim in
each of these cases, so they need not be told apart afterwards (`NewData.Setting.skips_or_carries`).
In the other case the block is determined by the groups it was given and the process it is on
(`NewData.Setting.block`), and so is the state after it (`NewData.Setting.carry`).

Over a whole pass, by induction on the candidates from the back:

* `NewData.fair_foldl_serve`: the pass gives free and allowed groups away, to candidates only;
* `NewData.uptake_foldl_serve`: a process rests, or a new block takes it over and the feedback that
  waited for the former one is gone.
-/

namespace LteMac.NewData

open Retransmission (usable usable_iff)

variable {Record : Type} {setting : Setting} {proposal : Allocation} {o : Occupancy} {r : Rnti}
  {id : Nat} {round round' : Round Record}

/-! ## One candidate -/

/-- Claiming takes free groups that the UE may have, each once. -/
theorem claim_eq (reuse : ReusePolicy) (r : Rnti) (proposed : List Nat) (o : Occupancy) :
    ∃ claimed, claim reuse r o proposed = (o.occupy claimed, claimed) ∧ claimed.Nodup ∧
      ∀ i ∈ claimed, usable reuse o r i = true := by
  induction proposed generalizing o with
  | nil => exact ⟨[], rfl, .nil, by simp⟩
  | cons rbg rest ih =>
    unfold claim
    split
    next huse =>
      -- What is claimed later was free after this group was taken, so it is another one.
      obtain ⟨claimed, heq, hnodup, husable⟩ := ih (o.occupy [rbg])
      have hother : ∀ i ∈ claimed, i ≠ rbg ∧ usable reuse o r i = true := by
        intro i hi
        obtain ⟨hfree, hallowed⟩ := usable_iff.1 (husable i hi)
        rw [Occupancy.isFree_occupy] at hfree
        refine ⟨by simp_all, usable_iff.2 ⟨by simp_all, hallowed⟩⟩
      refine ⟨rbg :: claimed, by rw [heq]; rfl, List.nodup_cons.2 ⟨?_, hnodup⟩, ?_⟩
      · exact fun hmem => (hother rbg hmem).1 rfl
      · exact List.forall_mem_cons.2 ⟨huse, fun i hi => (hother i hi).2⟩
    next => exact ih o

namespace Setting

variable (setting : Setting)

/-- The block that a UE is sent on some groups: the schemes follow from the worst quality of each
layer, and the queues of the UE share each layer. -/
def block (r : Rnti) (u : DownlinkUe Record) (rbgs : List Nat) (process : Nat) : DataGrant :=
  let grant := setting.grant r rbgs (setting.layerCqis r rbgs) process
  ⟨r, grant, u.elements.getD .empty, share (activeChannels u.queues) grant.tbs⟩

/-- The pass once a process, which left `harq`, carries a block to a UE: the queues are drained, the
control elements are gone, the process remembers the block, and feedback that waited for the former
block of the process says nothing any more. -/
def carry (round : Round Record) (r : Rnti) (u : DownlinkUe Record) (rbgs : List Nat)
    (process : Nat) (harq : DownlinkHarq) : Round Record :=
  let b := setting.block r u rbgs process
  { ues := round.ues.insert r { u with
      queues := drainAll u.queues (activeChannels u.queues) b.grant.tbs, elements := none }
    harq := if setting.harqEnabled then harq.set r b.grant.process (.start b.grant b.pdus) else harq
    feedback :=
      if setting.harqEnabled then
        round.feedback.filter fun f => f.rnti ≠ r || f.process ≠ b.grant.process
      else round.feedback
    occupancy := round.occupancy
    sent := round.sent ++ [b] }

variable {setting}

/-- A block is carried by the process that its UE moved on to, or there are no processes in this
cell. -/
theorem process?_eq_some {harq harq' : DownlinkHarq}
    (h : setting.process? harq r = some (id, harq')) :
    setting.harqEnabled = true ∧ harq.advance? r = some (id, harq') ∨
      setting.harqEnabled = false ∧ id = 0 ∧ harq' = harq := by
  rw [process?] at h
  split at h
  next hon => exact .inl ⟨hon, h⟩
  next hoff =>
    obtain ⟨rfl, rfl⟩ := Prod.mk.inj (Option.some.inj h)
    exact .inr ⟨Bool.eq_false_iff.2 hoff, rfl, rfl⟩

/-- The entities stay apart when a process is chosen. -/
theorem separate_of_process? {harq harq' : DownlinkHarq} (hs : harq.Separate)
    (h : setting.process? harq r = some (id, harq')) : harq'.Separate := by
  obtain ⟨-, hadv⟩ | ⟨-, -, rfl⟩ := process?_eq_some h
  · exact (DownlinkHarq.advance?_eq_some hs hadv).1
  · exact hs

/-- A UE that can be served is served by the process that was chosen for it. -/
theorem send?_eq_some {u : DownlinkUe Record} {rbgs : List Nat}
    (h : setting.send? round r u rbgs = some round') :
    ∃ process harq, setting.process? round.harq r = some (process, harq) ∧
      round' = setting.carry round r u rbgs process harq := by
  rw [send?] at h
  dsimp only at h
  split at h
  · cases h
  split at h
  · cases h
  next process harq hproc => exact ⟨process, harq, hproc, (Option.some.inj h).symm⟩

variable (setting) in
/-- A candidate is skipped, and then nothing changes, or is sent a block on what it claims. -/
theorem skips_or_carries (proposal : Allocation) (round : Round Record) (r : Rnti) :
    let claimed := claim setting.reuse r round.occupancy (proposal.getD r [])
    setting.serve proposal round r = round ∨
      ∃ u process harq, claimed.2.mergeSort ≠ [] ∧ round.ues[r]? = some u ∧
        setting.process? round.harq r = some (process, harq) ∧
        setting.serve proposal round r = setting.carry { round with occupancy := claimed.1 } r u
          claimed.2.mergeSort process harq := by
  intro claimed
  rw [serve]
  -- Every way out but the last one rolls the claim back.
  rcases hu : round.ues[r]? with _ | u
  · exact .inl rfl
  · dsimp only
    split
    · exact .inl rfl
    next hne =>
      cases hsend : setting.send? { round with occupancy := claimed.1 } r u
          claimed.2.mergeSort with
      | none => exact .inl rfl
      | some out =>
        obtain ⟨process, harq, hproc, rfl⟩ := send?_eq_some hsend
        exact .inr ⟨u, process, harq, by simpa using hne, rfl, hproc, rfl⟩

end Setting

/-- What serving a candidate comes to, as far as the grid and the processes are concerned: the block
is on groups that were free and allowed, in ascending order, and on the process that its UE moved on
to. -/
inductive Served (setting : Setting) (round : Round Record) (r : Rnti) : Round Record → Prop
  /-- The UE gets nothing, and what was taken for it is given back. -/
  | skipped : Served setting round r round
  /-- The UE gets a block. -/
  | sent {ues : Table Rnti (DownlinkUe Record)} {harq : DownlinkHarq} {b : DataGrant}
      {rbgs : List Nat} (hrnti : b.rnti = r) (haddr : b.grant.rnti = r)
      (hbitmap : b.grant.bitmap = .ofIndices rbgs) (hsorted : rbgs.Pairwise (· < ·))
      (hne : rbgs ≠ []) (husable : ∀ i ∈ rbgs, usable setting.reuse round.occupancy r i = true)
      (hfirst : 0 < setting.layers r → b.IsFirst)
      (hproc : setting.process? round.harq r = some (b.grant.process, harq)) :
      Served setting round r
        { ues
          harq := if setting.harqEnabled then
              harq.set r b.grant.process (.start b.grant b.pdus) else harq
          feedback := if setting.harqEnabled then
              round.feedback.filter fun f => f.rnti ≠ r || f.process ≠ b.grant.process
            else round.feedback
          occupancy := round.occupancy.occupy rbgs
          sent := round.sent ++ [b] }

/-- Whatever the policy proposes, a candidate is served in one of the two ways. -/
theorem served_serve (setting : Setting) (proposal : Allocation) (round : Round Record)
    (r : Rnti) : Served setting round r (setting.serve proposal round r) := by
  obtain ⟨claimed, hclaim, hnodup, husable⟩ :=
    claim_eq setting.reuse r (proposal.getD r []) round.occupancy
  have hperm : claimed.mergeSort.Perm claimed := List.mergeSort_perm ..
  obtain heq | ⟨u, process, harq, hne, -, hproc, heq⟩ := setting.skips_or_carries proposal round r
  · rw [heq]
    exact .skipped
  -- The UE is sent a block, on the groups that it could claim, in ascending order. Sorting them
  -- changes neither which groups are taken nor that they are free.
  · rw [hclaim] at hne heq
    -- A block with a layer is a first one: its indicator is set, and its version is the first.
    have hfirst : 0 < setting.layers r →
        (setting.block r u claimed.mergeSort process).IsFirst := by
      intro hlayers
      refine ⟨?_, ?_, ?_⟩
      · simpa [Setting.block, Setting.grant, Setting.layerCqis] using Nat.ne_of_gt hlayers
      · simp [Setting.block, Setting.grant, List.map_const']
      · simp [Setting.block, Setting.grant, List.map_const']
    rw [heq, Setting.carry]
    dsimp only
    rw [← Occupancy.occupy_perm hperm]
    generalize hb : setting.block r u claimed.mergeSort process = b at hfirst
    obtain ⟨hrnti, haddr, hbitmap, hprocess⟩ : b.rnti = r ∧ b.grant.rnti = r ∧
        b.grant.bitmap = .ofIndices claimed.mergeSort ∧ b.grant.process = process := by
      rw [← hb]
      exact ⟨rfl, rfl, rfl, rfl⟩
    exact .sent hrnti haddr hbitmap (pairwise_mergeSort_of_nodup hnodup) hne
      (fun i hi => husable i (hperm.mem_iff.1 hi)) hfirst (hprocess ▸ hproc)

/-! ## The groups of a pass -/

/-- The state of a pass over the candidates `cs` that began on `o`: the processes are sound, and
the groups of its blocks, each of them new, were handed out to candidates. -/
structure Round.Fair (setting : Setting) (o : Occupancy) (cs : List Rnti) (round : Round Record) :
    Prop where
  /-- The processes remember what they carry. -/
  sound : round.harq.Sound
  /-- The groups of the blocks were handed out. -/
  handout : Handout setting.reuse o round.occupancy round.sent
  /-- Only candidates were served. -/
  named : ∀ b ∈ round.sent, b.rnti ∈ cs
  /-- All blocks are new. -/
  first : ∀ b ∈ round.sent, b.IsFirst

/-- One more candidate, which was not served before, keeps a pass fair. -/
theorem Round.Fair.of_served {cs : List Rnti} (h : round.Fair setting o cs) (hsize : o.size ≤ 32)
    (hlayers : 0 < setting.layers r) (hnew : r ∉ cs) (hs : Served setting round r round') :
    round'.Fair setting o (cs ++ [r]) := by
  obtain ⟨hsound, hhand, hnamed, hfirsts⟩ := h
  cases hs with
  | skipped => exact ⟨hsound, hhand, fun b hb => List.mem_append_left _ (hnamed b hb), hfirsts⟩
  | @sent _ harq b rbgs hrnti haddr hbitmap hsorted hne husable hfirst hproc =>
    have hone : Handout setting.reuse round.occupancy (round.occupancy.occupy rbgs) [b] := by
      refine .single ?_ hbitmap (haddr.trans hrnti.symm) hsorted hne ?_ ?_
      · rwa [hhand.allots.size]
      · exact fun i hi => (usable_iff.1 (husable i hi)).1
      · exact fun i hi => hrnti ▸ (usable_iff.1 (husable i hi)).2
    refine ⟨?_, hhand.append hone ?_, ?_, ?_⟩
    · obtain ⟨hon, hadv⟩ | ⟨hoff, -, rfl⟩ := Setting.process?_eq_some hproc
      · rw [if_pos hon]
        refine (hsound.advance hadv).set rfl haddr rfl ?_
        simpa [DataGrant.rbgs] using hone.allots.nonempty
      · rw [hoff]
        exact hsound
    · -- The pass sent nothing to this candidate before.
      intro b' hb' b'' hb'' heq
      rw [List.mem_singleton.1 hb'', hrnti] at heq
      exact hnew (heq ▸ hnamed b' hb')
    · refine List.forall_mem_append.2 ⟨fun b' hb' => List.mem_append_left _ (hnamed b' hb'), ?_⟩
      simp [hrnti]
    · exact List.forall_mem_append.2 ⟨hfirsts, by simpa using hfirst hlayers⟩

/-- A pass over different candidates gives free and allowed groups away, each to one of them. -/
theorem fair_foldl_serve (setting : Setting) (proposal : Allocation) {cs : List Rnti}
    {start : Round Record} (hsound : start.harq.Sound) (hsize : start.occupancy.size ≤ 32)
    (hsent : start.sent = []) (hcs : cs.Nodup) (hlayers : ∀ c, 0 < setting.layers c) :
    (cs.foldl (setting.serve proposal) start).Fair setting start.occupancy cs := by
  induction cs using List.reverseRecOn with
  | nil => exact ⟨hsound, by simpa [hsent] using Handout.nil _ _, by simp [hsent], by simp [hsent]⟩
  | append_singleton cs c ih =>
    obtain ⟨hcs, -, hnew⟩ := List.nodup_append.1 hcs
    rw [List.foldl_append]
    exact (ih hcs).of_served hsize (hlayers c) (fun hc => hnew c hc c (by simp) rfl)
      (served_serve ..)

/-! ## One process over a pass -/

/-- What becomes of a process, with the feedback `waiting` on it, in a pass: the process
afterwards, the blocks sent on it, and the feedback that still waits. -/
inductive Uptake (r : Rnti) (id : Nat) (p : Option DownlinkProcess)
    (waiting : List HarqFeedback) :
    Option DownlinkProcess → List DataGrant → List HarqFeedback → Prop
  /-- No new block is sent on it, and its feedback waits on. -/
  | rests : Uptake r id p waiting p [] waiting
  /-- A new block took it over. -/
  | started {q : DownlinkProcess} {b : DataGrant} (hq : p = some q) (hav : q.isAvailable = true)
      (hon : b.isOn r id = true) (hfirst : b.IsFirst) :
      Uptake r id p waiting (some (.start b.grant b.pdus)) [b] []

/-- Of the feedback that a new block leaves, none is on its process, and all of that on another
one. -/
theorem filter_isOn_of_cleared (waiting : List HarqFeedback) (r r' : Rnti) (id id' : Nat) :
    (waiting.filter fun f => f.rnti ≠ r || f.process ≠ id).filter (·.isOn r' id') =
      if r' = r ∧ id' = id then [] else waiting.filter (·.isOn r' id') := by
  rw [List.filter_filter]
  split
  next heq =>
    refine List.filter_eq_nil_iff.2 fun f _ => ?_
    simp [HarqFeedback.isOn, heq.1, heq.2]
  next hne =>
    refine List.filter_congr fun f _ => ?_
    cases hon : f.isOn r' id' with
    | false => rfl
    | true =>
      obtain ⟨rfl, rfl⟩ := HarqFeedback.isOn_iff.1 hon
      simp
      tauto

/-- Serving a candidate leaves every process alone but the one it sends a block on. -/
theorem Served.uptake (hs : Served setting round r round')
    (henabled : setting.harqEnabled = true) (hlayers : 0 < setting.layers r)
    (hsound : round.harq.Sound) (r' : Rnti) (id : Nat) :
    ∃ new, round'.sent = round.sent ++ new ∧ (∀ b ∈ new, b.rnti = r) ∧
      Uptake r' id (round.harq.process? r' id) (round.feedback.filter (·.isOn r' id))
        (round'.harq.process? r' id) (new.filter (·.isOn r' id))
        (round'.feedback.filter (·.isOn r' id)) := by
  cases hs with
  | skipped => exact ⟨[], by simp, by simp, .rests⟩
  | @sent _ harq b rbgs hrnti haddr hbitmap hsorted hne husable hfirst hproc =>
    refine ⟨[b], rfl, by simpa using hrnti, ?_⟩
    rw [Setting.process?, if_pos henabled] at hproc
    obtain ⟨hsep, ⟨q, hq, hav⟩, hproc⟩ := DownlinkHarq.advance?_eq_some hsound.separate hproc
    simp only [henabled, if_true, filter_isOn_of_cleared, DownlinkHarq.process?_set hsep, hproc,
      List.filter_singleton]
    -- The block takes over the process that it is on. All others keep what they had.
    by_cases hon : r' = r ∧ id = b.grant.process
    · obtain ⟨rfl, rfl⟩ := hon
      have hon : b.isOn r' b.grant.process = true := DataGrant.isOn_iff.2 ⟨hrnti, rfl⟩
      simp only [hon, and_self, if_true, Option.map_some]
      exact .started hq hav hon (hfirst hlayers)
    · have hoff : b.isOn r' id = false := by
        rw [Bool.eq_false_iff, ne_eq, DataGrant.isOn_iff, hrnti]
        exact fun h => hon ⟨h.1.symm, h.2.symm⟩
      simp only [hoff, if_neg hon]
      exact .rests

/-- What becomes of a process in a pass. -/
theorem uptake_foldl_serve (setting : Setting) (proposal : Allocation) {cs : List Rnti}
    {start : Round Record} (hsound : start.harq.Sound) (hsize : start.occupancy.size ≤ 32)
    (hsent : start.sent = []) (hcs : cs.Nodup) (henabled : setting.harqEnabled = true)
    (hlayers : ∀ c, 0 < setting.layers c) (r : Rnti) (id : Nat) :
    let out := cs.foldl (setting.serve proposal) start
    Uptake r id (start.harq.process? r id) (start.feedback.filter (·.isOn r id))
      (out.harq.process? r id) (out.sent.filter (·.isOn r id))
      (out.feedback.filter (·.isOn r id)) := by
  induction cs using List.reverseRecOn with
  | nil => simpa [hsent] using Uptake.rests
  | append_singleton cs c ih =>
    obtain ⟨hcs, -, hnew⟩ := List.nodup_append.1 hcs
    have hfair := fair_foldl_serve setting proposal hsound hsize hsent hcs hlayers
    have hs := served_serve setting proposal (cs.foldl (setting.serve proposal) start) c
    obtain ⟨new, hsent', hnewc, hup⟩ := hs.uptake henabled (hlayers c) hfair.sound r id
    have ih := ih hcs
    simp only [List.foldl_append, List.foldl_cons, List.foldl_nil] at ih ⊢
    generalize cs.foldl (setting.serve proposal) start = mid at *
    generalize setting.serve proposal mid c = out at *
    rw [hsent', List.filter_append]
    -- A UE is served once: the pass so far, or this candidate, sent nothing on the process.
    by_cases hr : r = c
    · have hold : mid.sent.filter (·.isOn r id) = [] := by
        refine List.filter_eq_nil_iff.2 fun b hb hon => ?_
        obtain ⟨hbr, -⟩ := DataGrant.isOn_iff.1 hon
        exact hnew c (hr ▸ hbr ▸ hfair.named b hb) c (by simp) rfl
      rw [hold] at ih ⊢
      generalize hp : mid.harq.process? r id = p at ih hup
      generalize hw : mid.feedback.filter (·.isOn r id) = w at ih hup
      cases ih
      exact hup
    · have hnone : new.filter (·.isOn r id) = [] := by
        refine List.filter_eq_nil_iff.2 fun b hb hon => ?_
        exact hr ((DataGrant.isOn_iff.1 hon).1.symm.trans (hnewc b hb))
      rw [hnone] at hup ⊢
      rw [List.append_nil]
      generalize hp : out.harq.process? r id = p at hup ⊢
      generalize hw : out.feedback.filter (·.isOn r id) = w at hup ⊢
      cases hup
      exact ih

end LteMac.NewData
