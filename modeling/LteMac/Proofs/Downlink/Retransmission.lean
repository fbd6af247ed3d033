import LteMac.Proofs.Downlink.Handout
import Mathlib.Data.List.Induction

/-!
# The retransmission pass

Feedback is acted upon piece by piece, and each piece comes to one of four things
(`Retransmission.Round.Handled`): it is dropped, for there is no block; it frees the process,
because the block is overdue, was not reported as failed, or failed in its last version; it waits,
because the UE already has a block or there is no room; or the block is sent again. All that is said
about a pass follows from these four, by induction on the feedback from the back, so the program is
taken apart once only.

Several pieces may concern one process, and the later ones find it as the earlier ones left it. What
a whole pass does to a block in flight is therefore not the effect of one piece, but a `Fate`: the
block rests, is sent again once and as it was, or is freed for a reason, and one odd case is that it
is sent again and freed by a later piece of feedback in the same pass.

* `Retransmission.fair_handleAll`: the pass gives free and allowed groups away, at most one block to
  each UE;
* `Retransmission.fate_handleAll`: what becomes of a block in flight;
* `Retransmission.idle_handleAll`: a process without a block is left alone;
* `Retransmission.cause_of_sent`: every block of the pass was sent because of a failure on its
  process.
-/

namespace LteMac.Retransmission

variable {reuse : ReusePolicy} {o : Occupancy} {r : Rnti} {id : Nat}

/-! ## One piece of feedback -/

/-- The groups a block is placed on are usable, and as many as before. -/
theorem place?_eq_some {former rbgs : List Nat} (h : place? reuse o r former = some rbgs)
    (hsorted : former.Pairwise (· < ·)) :
    rbgs.length = former.length ∧ rbgs.Pairwise (· < ·) ∧
      ∀ i ∈ rbgs, usable reuse o r i = true := by
  simp only [place?] at h
  split at h
  next hall =>
    obtain rfl := Option.some.inj h
    exact ⟨rfl, hsorted, List.all_eq_true.1 hall⟩
  next =>
    split at h
    · cases h
    next hlen =>
      obtain rfl := Option.some.inj h
      refine ⟨?_, ?_, fun i hi => ?_⟩
      · exact Nat.le_antisymm (List.length_take_le _ _) (Nat.not_lt.1 hlen)
      · exact ((List.Pairwise.filter _ List.pairwise_lt_range).take)
      · exact (List.mem_filter.1 (List.mem_of_mem_take hi)).2

namespace Round

/-- What acting upon feedback comes to. The hypotheses of a case are all that the program checked
before it: where a proof needs that a block was freed for a reason, or that one which waits did
fail, it finds it here. -/
inductive Handled (reuse : ReusePolicy) (round : Round) (f : HarqFeedback) : Round → Prop
  /-- There is no block. -/
  | dropped (hidle : ∀ p, round.harq.process? f.rnti f.process = some p → p.isFree = true) :
      Handled reuse round f round
  /-- The feedback came too late, the block was delivered, or it failed in its last version. -/
  | freed {p : DownlinkProcess} (hp : round.harq.process? f.rnti f.process = some p)
      (hflight : p.isFree = false)
      (hwhy : p.isOverdue = true ∨ f.isNack = false ∨ f.isNack = true ∧
        round.served f.rnti = false ∧ ∀ g, p.grant = some g → exhausted g = true) :
      Handled reuse round f (round.free f.rnti f.process)
  /-- The block failed, but cannot be sent now. -/
  | kept {p : DownlinkProcess} (hp : round.harq.process? f.rnti f.process = some p)
      (hflight : p.isFree = false) (hdue : p.isOverdue = false) (hnack : f.isNack = true)
      (hwhy : round.served f.rnti = true ∨ ∃ g, p.grant = some g ∧ exhausted g = false ∧
        place? reuse round.occupancy f.rnti g.bitmap.indices = none) :
      Handled reuse round f (round.keep f)
  /-- The block failed and is sent again. -/
  | again {p : DownlinkProcess} {g : DownlinkGrant} {rbgs : List Nat}
      (hp : round.harq.process? f.rnti f.process = some p)
      (hflight : p.isFree = false) (hdue : p.isOverdue = false) (hnack : f.isNack = true)
      (hserved : round.served f.rnti = false) (hg : p.grant = some g)
      (hleft : exhausted g = false)
      (hplace : place? reuse round.occupancy f.rnti g.bitmap.indices = some rbgs) :
      Handled reuse round f (round.send f.rnti f.process p g rbgs)

/-- The cases of `Handled` are all there are. -/
theorem handled_handle (reuse : ReusePolicy) (round : Round) (f : HarqFeedback) :
    Handled reuse round f (round.handle reuse f) := by
  -- The cases follow the pass: is there such a process, does it carry a block, did the block fail,
  -- is its UE served already, may the block be sent again, and is there a place for it.
  unfold handle
  split
  next hnone => exact .dropped fun p hp => by simp [hnone] at hp
  next p hp =>
    split
    next hidle => exact .dropped fun q hq => by simpa [hp, ← Option.some.inj (hp.symm.trans hq)]
    next hflight =>
      have hflight : p.isFree = false := Bool.eq_false_iff.2 hflight
      split
      next hwhy =>
        have hwhy : p.isOverdue = true ∨ f.isNack = false := by simpa using hwhy
        exact .freed hp hflight (hwhy.imp_right .inl)
      next hwhy =>
        obtain ⟨hdue, hnack⟩ : p.isOverdue = false ∧ f.isNack = true := by simpa using hwhy
        unfold retry
        split
        next hserved => exact .kept hp hflight hdue hnack (.inl hserved)
        next hserved =>
          have hserved : round.served f.rnti = false := Bool.eq_false_iff.2 hserved
          split
          next hgrant =>
            exact .freed hp hflight (.inr (.inr ⟨hnack, hserved, by simp [hgrant]⟩))
          next g hgrant =>
            split
            next hex =>
              refine .freed hp hflight (.inr (.inr ⟨hnack, hserved, ?_⟩))
              simpa [hgrant] using hex
            next hleft =>
              split
              next hplace =>
                exact .kept hp hflight hdue hnack
                  (.inr ⟨g, hgrant, Bool.eq_false_iff.2 hleft, hplace⟩)
              next rbgs hplace =>
                exact .again hp hflight hdue hnack hserved hgrant (Bool.eq_false_iff.2 hleft) hplace

end Round

/-! ## The groups of a pass -/

/-- The state of a pass that began on `o`: the processes are sound, and the groups of its blocks
were handed out. -/
structure Round.Fair (reuse : ReusePolicy) (o : Occupancy) (round : Round) : Prop where
  /-- The processes remember what they carry. -/
  sound : round.harq.Sound
  /-- The groups of the blocks were handed out. -/
  handout : Handout reuse o round.occupancy round.sent

variable {round round' : Round}

/-- A UE without a block in the pass has none in the list of blocks either. -/
theorem Round.not_mem_of_served {f : HarqFeedback} (h : round.served f.rnti = false) :
    ∀ b ∈ round.sent, b.rnti ≠ f.rnti := by
  simpa [Round.served] using h

/-- Acting upon one more piece of feedback keeps the pass fair: only a block that is sent again
takes groups, and it takes free ones. -/
theorem Round.Fair.of_handled {f : HarqFeedback} (h : round.Fair reuse o) (hsize : o.size ≤ 32)
    (hf : round.Handled reuse f round') : round'.Fair reuse o := by
  obtain ⟨hsound, hhand⟩ := h
  cases hf with
  | dropped => exact ⟨hsound, hhand⟩
  | freed => exact ⟨hsound.free, hhand⟩
  | kept => exact ⟨hsound, hhand⟩
  | @again p g rbgs hp hflight hdue hnack hserved hg hleft hplace =>
    -- The former groups are not empty, and the new ones are as many.
    obtain ⟨g', hg', hrnti, hprocess, hne⟩ := hsound.carries hp hflight
    obtain rfl : g = g' := Option.some.inj (hg.symm.trans hg')
    obtain ⟨hlen, hsorted, husable⟩ := place?_eq_some hplace (RbgBitmap.pairwise_indices _)
    have hrbgs : rbgs ≠ [] := fun h => hne (List.length_eq_zero_iff.1 (by rw [← hlen, h]; rfl))
    have hone : Handout reuse round.occupancy (round.occupancy.occupy rbgs)
        [⟨f.rnti, again g rbgs, .empty, p.pdus⟩] := by
      refine .single ?_ rfl hrnti hsorted hrbgs ?_ ?_
      · rwa [hhand.allots.size]
      · exact fun i hi => (usable_iff.1 (husable i hi)).1
      · exact fun i hi => (usable_iff.1 (husable i hi)).2
    refine ⟨hsound.set rfl hrnti hprocess ?_, hhand.append hone ?_⟩
    · simpa [DataGrant.rbgs] using hone.allots.nonempty
    · simpa using Round.not_mem_of_served hserved

/-- The pass over the feedback `pending`. -/
theorem handleAll_concat (harq : DownlinkHarq) (pending : List HarqFeedback) (f : HarqFeedback) :
    handleAll reuse harq o (pending ++ [f]) =
      (handleAll reuse harq o pending).handle reuse f := by
  simp [handleAll]

/-- A pass is fair, whatever the feedback. From this come both that no group is given away twice and
that no UE is sent two blocks. -/
theorem fair_handleAll (reuse : ReusePolicy) {harq : DownlinkHarq} (hsound : harq.Sound)
    (hsize : o.size ≤ 32) (pending : List HarqFeedback) :
    (handleAll reuse harq o pending).Fair reuse o := by
  induction pending using List.reverseRecOn with
  | nil => exact ⟨hsound, .nil reuse o⟩
  | append_singleton pending f ih =>
    rw [handleAll_concat]
    exact ih.of_handled hsize (Round.handled_handle ..)

/-! ## One process over a pass -/

/-- The grant `g'` sends the block of `p` again: in the next version, on as many groups. -/
structure Repeats (p : DownlinkProcess) (g g' : DownlinkGrant) : Prop where
  /-- The process remembers how the block was last sent. -/
  former : p.grant = some g
  /-- That was not its last version. -/
  left : exhausted g = false
  /-- It is sent as before, but for the groups. -/
  again : ∃ rbgs, g' = again g rbgs
  /-- There are as many groups as before. -/
  groups : g'.bitmap.indices.length = g.bitmap.indices.length

/-- A process whose block was just sent again. -/
def resent (p : DownlinkProcess) (g' : DownlinkGrant) : DownlinkProcess :=
  ⟨p.status + 1, 0, some g', p.pdus⟩

/-- The block of a process, sent again to UE `r`. -/
def repetition (r : Rnti) (p : DownlinkProcess) (g' : DownlinkGrant) : DataGrant :=
  ⟨r, g', .empty, p.pdus⟩

/-- Why a pass over the feedback `pending` frees a process. The second reason is the one to note:
any feedback that is not a failure frees the process, whether it acknowledges the block or says
nothing of it. -/
inductive Lapsed (pending : List HarqFeedback) (p : DownlinkProcess) : Prop
  /-- No word came for too long. -/
  | overdue (hdue : p.isOverdue = true)
  /-- Some feedback is not a failure. -/
  | answered {f : HarqFeedback} (hmem : f ∈ pending) (hack : f.isNack = false)
  /-- Some feedback is a failure, and the block was sent as often as it may be. -/
  | exhausted {f : HarqFeedback} (hmem : f ∈ pending) (hnack : f.isNack = true)
      (hlast : ∀ g, p.grant = some g → Retransmission.exhausted g = true)

/-- What becomes of a block in flight in a pass over the feedback `pending` on it: the process
afterwards, the blocks it sent, and the feedback that waits. At most one block is sent, and it is
the block that was in flight before the pass. -/
inductive Fate (r : Rnti) (pending : List HarqFeedback) (p : DownlinkProcess) :
    DownlinkProcess → List DataGrant → List HarqFeedback → Prop
  /-- It stays in flight, and what was heard of it waits. -/
  | rests (hnack : ∀ f ∈ pending, f.isNack = true) : Fate r pending p p [] pending
  /-- It is sent again, and the feedback that caused this is used up. -/
  | again {g g' : DownlinkGrant} {kept : List HarqFeedback}
      (hnack : ∀ f ∈ pending, f.isNack = true) (hg : Repeats p g g')
      (hkept : kept.Sublist pending) :
      Fate r pending p (resent p g') [repetition r p g'] kept
  /-- It is given up or delivered, so its process is free. -/
  | freed {kept : List HarqFeedback} (hwhy : Lapsed pending p) (hkept : kept.Sublist pending) :
      Fate r pending p .free [] kept
  /-- It was sent again, and then the feedback on an earlier transmission came up. -/
  | answered {g g' : DownlinkGrant} {kept : List HarqFeedback} (hg : Repeats p g g')
      (hack : ∃ f ∈ pending, f.isNack = false) (hkept : kept.Sublist pending) :
      Fate r pending p .free [repetition r p g'] kept

/-- A block that is sent again is not marked as new. -/
theorem Repeats.not_isNew {p : DownlinkProcess} {g g' : DownlinkGrant} (h : Repeats p g g') :
    (repetition r p g').isNew = false := by
  obtain ⟨rbgs, rfl⟩ := h.again
  simp [DataGrant.isNew, repetition, Retransmission.again]

/-- A reason remains one when more feedback is looked at. -/
theorem Lapsed.concat {pending : List HarqFeedback} {p : DownlinkProcess}
    (h : Lapsed pending p) (f : HarqFeedback) : Lapsed (pending ++ [f]) p := by
  cases h with
  | overdue hdue => exact .overdue hdue
  | answered hmem hack => exact .answered (List.mem_append_left _ hmem) hack
  | exhausted hmem hnack hlast => exact .exhausted (List.mem_append_left _ hmem) hnack hlast

/-- Acting upon feedback on another process leaves a process alone. -/
theorem Round.Handled.other {f : HarqFeedback} (hf : round.Handled reuse f round')
    (hsound : round.harq.Sound) (hoff : f.isOn r id = false) :
    round'.harq.process? r id = round.harq.process? r id ∧
      round'.sent.filter (·.isOn r id) = round.sent.filter (·.isOn r id) ∧
      round'.kept.filter (·.isOn r id) = round.kept.filter (·.isOn r id) := by
  have hne : ¬(r = f.rnti ∧ id = f.process) := by
    rintro ⟨rfl, rfl⟩
    simp [HarqFeedback.isOn] at hoff
  cases hf with
  | dropped => exact ⟨rfl, rfl, rfl⟩
  | freed =>
    refine ⟨?_, rfl, rfl⟩
    rw [Round.free, DownlinkHarq.process?_set hsound.separate, if_neg hne]
  | kept => exact ⟨rfl, rfl, by simp [Round.keep, hoff]⟩
  | @again p g rbgs hp hflight hdue hnack hserved hg hleft hplace =>
    obtain ⟨g', hg', hrnti, hprocess, -⟩ := hsound.carries hp hflight
    obtain rfl : g = g' := Option.some.inj (hg.symm.trans hg')
    refine ⟨?_, ?_, rfl⟩
    · simp only [Round.send]
      rw [DownlinkHarq.process?_set hsound.separate, if_neg hne]
    -- The block is on the process that the feedback is on, as the arena is sound.
    · have hblock : DataGrant.isOn ⟨f.rnti, Retransmission.again g rbgs, .empty, p.pdus⟩ r id =
          false := by
        rw [← hoff, DataGrant.isOn, HarqFeedback.isOn]
        exact congrArg (f.rnti == r && · == id) hprocess
      simp [Round.send, hblock]

/-- The block, placed on as many groups as it had, is the same block in its next version. -/
theorem repeats_of_place? {p : DownlinkProcess} {g : DownlinkGrant} {rbgs : List Nat}
    (hsize : o.size ≤ 32) (hg : p.grant = some g) (hleft : exhausted g = false)
    (hplace : place? reuse o r g.bitmap.indices = some rbgs) : Repeats p g (again g rbgs) := by
  obtain ⟨hlen, hsorted, husable⟩ := place?_eq_some hplace (RbgBitmap.pairwise_indices _)
  refine ⟨hg, hleft, ⟨rbgs, rfl⟩, ?_⟩
  have hindices : (again g rbgs).bitmap.indices = rbgs :=
    RbgBitmap.indices_ofIndices hsorted fun i hi =>
      Nat.lt_of_lt_of_le (Occupancy.lt_size_of_isFree (usable_iff.1 (husable i hi)).1) hsize
  rw [hindices, hlen]

namespace Fate

variable {pending kept : List HarqFeedback} {sent : List DataGrant} {p p' : DownlinkProcess}
  {f : HarqFeedback}

/-- Feedback that is dropped comes after the block was freed. -/
theorem dropped (h : Fate r pending p p' sent kept) (hflight : p.isFree = false)
    (hfree : p'.isFree = true) : Fate r (pending ++ [f]) p p' sent kept := by
  have hsub : pending.Sublist (pending ++ [f]) := List.sublist_append_left _ _
  cases h with
  | rests => simp [hflight] at hfree
  | again => cases hfree
  | freed hwhy hkept => exact .freed (hwhy.concat f) (hkept.trans hsub)
  | answered hg hack hkept =>
    obtain ⟨a, ha, hack⟩ := hack
    exact .answered hg ⟨a, List.mem_append_left _ ha, hack⟩ (hkept.trans hsub)

/-- Feedback that frees the block does so for a reason, and not for a failure if the block was
just sent again. -/
theorem release (h : Fate r pending p p' sent kept) (hflight : p'.isFree = false)
    (hwhy : p'.isOverdue = true ∨ f.isNack = false ∨ f.isNack = true ∧ sent = [] ∧
      ∀ g, p'.grant = some g → exhausted g = true) :
    Fate r (pending ++ [f]) p .free sent kept := by
  have hsub : pending.Sublist (pending ++ [f]) := List.sublist_append_left _ _
  have hlast : f ∈ pending ++ [f] := by simp
  cases h with
  | rests =>
    refine .freed ?_ hsub
    rcases hwhy with hdue | hack | ⟨hnack, -, hex⟩
    · exact .overdue hdue
    · exact .answered hlast hack
    · exact .exhausted hlast hnack hex
  | again _ hg hkept =>
    rcases hwhy with hdue | hack | ⟨-, hnone, -⟩
    · -- Sending a block restarts its timer.
      simp [DownlinkProcess.isOverdue, resent, harqTimeout] at hdue
    · exact .answered hg ⟨f, hlast, hack⟩ (hkept.trans hsub)
    · cases hnone
  | freed => cases hflight
  | answered => cases hflight

/-- A failure that waits leaves the block as it is. -/
theorem keep (h : Fate r pending p p' sent kept) (hflight : p'.isFree = false)
    (hnack : f.isNack = true) : Fate r (pending ++ [f]) p p' sent (kept ++ [f]) := by
  have hnacks : (∀ a ∈ pending, a.isNack = true) → ∀ a ∈ pending ++ [f], a.isNack = true :=
    fun h => List.forall_mem_append.2 ⟨h, by simpa using hnack⟩
  cases h with
  | rests hall => exact .rests (hnacks hall)
  | again hall hg hkept => exact .again (hnacks hall) hg (hkept.append (.refl _))
  | freed => cases hflight
  | answered => cases hflight

/-- A failure that is acted upon finds the block as it was before the pass. -/
theorem resend {g g' : DownlinkGrant} (h : Fate r pending p p' [] kept)
    (hflight : p'.isFree = false) (hnack : f.isNack = true) (hg : Repeats p' g g') :
    Fate r (pending ++ [f]) p (resent p' g') [repetition r p' g'] kept := by
  cases h with
  | rests hall =>
    refine .again ?_ hg (List.sublist_append_left _ _)
    exact List.forall_mem_append.2 ⟨hall, by simpa using hnack⟩
  | freed => cases hflight

/-- Acting upon one more piece of feedback on a process continues its fate. Once the process is
free, only the case of dropped feedback is left, so a block that was freed is not sent again. -/
theorem of_handled
    (h : Fate f.rnti pending p p' (round.sent.filter (·.isOn f.rnti f.process))
      (round.kept.filter (·.isOn f.rnti f.process)))
    (hp' : round.harq.process? f.rnti f.process = some p') (hflight : p.isFree = false)
    (hfair : round.Fair reuse o) (hsize : o.size ≤ 32) (hf : round.Handled reuse f round') :
    ∃ p'', round'.harq.process? f.rnti f.process = some p'' ∧
      Fate f.rnti (pending ++ [f]) p p'' (round'.sent.filter (·.isOn f.rnti f.process))
        (round'.kept.filter (·.isOn f.rnti f.process)) := by
  have hon : f.isOn f.rnti f.process = true := HarqFeedback.isOn_iff.2 ⟨rfl, rfl⟩
  have hset : ∀ q, (round.harq.set f.rnti f.process q).process? f.rnti f.process = some q := by
    intro q
    rw [DownlinkHarq.process?_set hfair.sound.separate, if_pos ⟨rfl, rfl⟩, hp']
    rfl
  -- The pass served no process of a UE that it did not serve.
  have hserved : round.served f.rnti = false →
      round.sent.filter (·.isOn f.rnti f.process) = [] := by
    intro hno
    refine List.filter_eq_nil_iff.2 fun b hb hbon => ?_
    exact Round.not_mem_of_served hno b hb (DataGrant.isOn_iff.1 hbon).1
  cases hf with
  | dropped hidle => exact ⟨p', hp', h.dropped hflight (hidle p' hp')⟩
  | @freed q hq hqflight hwhy =>
    obtain rfl : p' = q := Option.some.inj (hp'.symm.trans hq)
    refine ⟨.free, hset _, h.release hqflight ?_⟩
    exact hwhy.imp_right (Or.imp_right fun ⟨hnack, hno, hex⟩ => ⟨hnack, hserved hno, hex⟩)
  | @kept q hq hqflight hdue hnack _ =>
    obtain rfl : p' = q := Option.some.inj (hp'.symm.trans hq)
    refine ⟨p', hp', ?_⟩
    simpa [Round.keep, hon] using h.keep hqflight hnack
  | @again q g rbgs hq hqflight hdue hnack hno hg hleft hplace =>
    obtain rfl : p' = q := Option.some.inj (hp'.symm.trans hq)
    obtain ⟨g', hg', hrnti, hprocess, -⟩ := hfair.sound.carries hq hqflight
    obtain rfl : g = g' := Option.some.inj (hg.symm.trans hg')
    have hrepeats : Repeats p' g (Retransmission.again g rbgs) :=
      repeats_of_place? (by rwa [hfair.handout.allots.size]) hg hleft hplace
    have hblock : DataGrant.isOn ⟨f.rnti, Retransmission.again g rbgs, .empty, p'.pdus⟩ f.rnti
        f.process = true := DataGrant.isOn_iff.2 ⟨rfl, hprocess⟩
    rw [hserved hno] at h
    refine ⟨resent p' (Retransmission.again g rbgs), hset _, ?_⟩
    simp only [Round.send, List.filter_append, List.filter_singleton, hblock, hserved hno]
    exact h.resend hqflight hnack hrepeats

end Fate

/-- What becomes of a block in flight in a pass. Feedback on other processes is passed over: the
fate of the block depends on the feedback on it alone, though not which groups it gets or whether
there is room. -/
theorem fate_handleAll (reuse : ReusePolicy) {harq : DownlinkHarq} {p : DownlinkProcess}
    (hsound : harq.Sound) (hsize : o.size ≤ 32) (hp : harq.process? r id = some p)
    (hflight : p.isFree = false) (pending : List HarqFeedback) :
    ∃ p', (handleAll reuse harq o pending).harq.process? r id = some p' ∧
      Fate r (pending.filter (·.isOn r id)) p p'
        ((handleAll reuse harq o pending).sent.filter (·.isOn r id))
        ((handleAll reuse harq o pending).kept.filter (·.isOn r id)) := by
  induction pending using List.reverseRecOn with
  | nil => exact ⟨p, hp, .rests (by simp)⟩
  | append_singleton pending f ih =>
    obtain ⟨p', hp', hfate⟩ := ih
    have hfair := fair_handleAll reuse hsound hsize pending
    have hf := Round.handled_handle reuse (handleAll reuse harq o pending) f
    rw [handleAll_concat, List.filter_append, List.filter_singleton]
    -- Feedback on another process changes nothing that the fate is about.
    cases hon : f.isOn r id with
    | false =>
      obtain ⟨hproc, hsent, hkept⟩ := hf.other hfair.sound hon
      rw [hproc, hsent, hkept]
      simpa using ⟨p', hp', hfate⟩
    | true =>
      obtain ⟨rfl, rfl⟩ := HarqFeedback.isOn_iff.1 hon
      exact hfate.of_handled hp' hflight hfair hsize hf

/-- A process without a block is left alone, and feedback on it is dropped. -/
theorem idle_handleAll (reuse : ReusePolicy) {harq : DownlinkHarq} (hsound : harq.Sound)
    (hsize : o.size ≤ 32)
    (hidle : ∀ p, harq.process? r id = some p → p.isFree = true) (pending : List HarqFeedback) :
    (handleAll reuse harq o pending).harq.process? r id = harq.process? r id ∧
      (handleAll reuse harq o pending).sent.filter (·.isOn r id) = [] ∧
      (handleAll reuse harq o pending).kept.filter (·.isOn r id) = [] := by
  induction pending using List.reverseRecOn with
  | nil => exact ⟨rfl, rfl, rfl⟩
  | append_singleton pending f ih =>
    have hfair := fair_handleAll reuse hsound hsize pending
    have hf := Round.handled_handle reuse (handleAll reuse harq o pending) f
    rw [handleAll_concat]
    cases hon : f.isOn r id with
    | false =>
      obtain ⟨hproc, hsent, hkept⟩ := hf.other hfair.sound hon
      rw [hproc, hsent, hkept]
      exact ih
    | true =>
      obtain ⟨rfl, rfl⟩ := HarqFeedback.isOn_iff.1 hon
      -- The process is still without a block, so the feedback can only be dropped.
      rw [← ih.1] at hidle
      generalize Round.handle reuse (handleAll reuse harq o pending) f = round' at hf
      cases hf with
      | dropped => exact ih
      | freed hq hflight => simp [hidle _ hq] at hflight
      | kept hq hflight => simp [hidle _ hq] at hflight
      | again hq hflight => simp [hidle _ hq] at hflight

/-- Every block of a pass was sent because its former transmission was reported to have failed. -/
theorem cause_of_sent {harq : DownlinkHarq} (hsound : harq.Sound) (hsize : o.size ≤ 32)
    {pending : List HarqFeedback} {b : DataGrant}
    (hb : b ∈ (handleAll reuse harq o pending).sent) :
    ∃ before f after, pending = before ++ f :: after ∧
      f.isOn b.rnti b.grant.process = true ∧ f.isNack = true ∧
      (handleAll reuse harq o (before ++ [f])).sent =
        (handleAll reuse harq o before).sent ++ [b] := by
  induction pending using List.reverseRecOn with
  | nil => cases hb
  | append_singleton pending f ih =>
    have hfair := fair_handleAll reuse hsound hsize pending
    have hf := Round.handled_handle reuse (handleAll reuse harq o pending) f
    -- A block of an earlier step has its cause among the earlier feedback.
    have hold : b ∈ (handleAll reuse harq o pending).sent → ∃ before a after,
        pending ++ [f] = before ++ a :: after ∧ a.isOn b.rnti b.grant.process = true ∧
        a.isNack = true ∧ (handleAll reuse harq o (before ++ [a])).sent =
          (handleAll reuse harq o before).sent ++ [b] := by
      intro hb
      obtain ⟨before, a, after, rfl, ha⟩ := ih hb
      exact ⟨before, a, after ++ [f], by simp, ha⟩
    rw [handleAll_concat] at hb
    generalize hround : Round.handle reuse (handleAll reuse harq o pending) f = round' at hf hb
    cases hf with
    | dropped | freed | kept => exact hold hb
    | @again p g rbgs hp hflight hdue hnack hserved hg hleft hplace =>
      rcases List.mem_append.1 hb with hb | hb
      · exact hold hb
      · -- The block that this feedback sends: it is the failure on its process.
        obtain ⟨g', hg', hrnti, hprocess, -⟩ := hfair.sound.carries hp hflight
        obtain rfl : g = g' := Option.some.inj (hg.symm.trans hg')
        obtain rfl := List.mem_singleton.1 hb
        refine ⟨pending, f, [], by simp, HarqFeedback.isOn_iff.2 ⟨rfl, hprocess.symm⟩, hnack, ?_⟩
        rw [handleAll_concat, hround]
        rfl

end LteMac.Retransmission
