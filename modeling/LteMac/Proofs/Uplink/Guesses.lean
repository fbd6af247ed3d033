import LteMac.Proofs.Numeric.Order
import LteMac.Proofs.Uplink.Attribution

/-!
# What is assumed without a measurement

A UE without any report gets the most robust scheme. A report in which no block was measured is
something else: the estimate from no measurement is the largest number there is, and it stays, so
that the next estimate is a sum of such numbers, which is infinite. No block is worse than the
largest number then, whatever was looked at before.

An estimate is written down where it is needed, so looking at a report changes it, and the next look
finds an estimate among what is known. The values that can arise in this way are three: a block that
nobody looked at, the largest number, and infinity (`IsGuess`). The last two are closed under taking
the mean. Of one of them the mean is that number, the sum of two is infinite, and infinity stays
what it is when it is divided by the number of blocks, of which there are at most a hundred.

The scheme for the largest number depends on the logarithm and the power of the platform, of which
nothing is assumed here; whatever they say, the scheme is the same for all such UEs.

* `UplinkQuality.Guessed`: nothing but such estimates is known of a UE;
* `UplinkQuality.Settles.guessed`: looking at blocks leaves it so;
* `UplinkNew.mcs_of_guessed`: the scheme of a UE of which nothing else is known.
-/

namespace LteMac

variable {q q' q'' : UplinkQuality} {r : Rnti} {samples : List Float} {v : Float} {b : Nat}

namespace LinkAdaptation

/-! ## The best channel -/

/-- The spectral efficiency that the capacity formula gives for an uplink SINR, in bit/s/Hz. -/
def efficiencyOfSinr (sinr : Float) : Float :=
  let gap := -(Float.log (5.0 * targetErrorRate)) / 1.5
  Float.log2 (1.0 + Float.pow 10.0 (sinr / 10.0) / gap)

/-- What is more efficient than every quality asks for has the highest one. -/
theorem cqiOfEfficiency_of_lt {efficiency : Float} (h : hundredths 555 < efficiency) :
    cqiOfEfficiency efficiency = maxCqi := by
  have hnumber : efficiency.isNaN = false :=
    Bool.eq_false_iff.2 fun hnone => float_not_lt_isNaN hnone h
  have htable : ∀ n ∈ cqiEfficiency.tail,
      (hundredths n).isNaN = false ∧ hundredths n ≤ hundredths 555 := by decide +kernel
  have hall : ∀ n ∈ cqiEfficiency.tail, decide (hundredths n < efficiency) = true := by
    intro n hn
    obtain ⟨hn, hle⟩ := htable n hn
    have htop : (hundredths 555).isNaN = false := by decide +kernel
    rw [float_lt_iff htop hnumber] at h
    rw [float_le_iff hn htop] at hle
    exact decide_eq_true ((float_lt_iff hn hnumber).2 (hle.trans_lt h))
  rw [cqiOfEfficiency, List.takeWhile_eq_self_iff.2 hall]
  rfl

end LinkAdaptation

namespace UplinkQuality

/-! ## Values -/

/-- Above the largest number. -/
def infinite : Float := Float.ofBits 0x7FF0000000000000

/-- An estimate made without any measurement. -/
def IsEstimate (v : Float) : Prop := v = unlimited ∨ v = infinite

/-- What can be known of a block if no block was ever measured: nothing, or an estimate. -/
def IsGuess (v : Float) : Prop := v = Sinr.unmeasured ∨ IsEstimate v

/-- No uplink has more blocks. -/
def maxBlocks : Nat := 100

/-- Of guesses, those that count as known are estimates. -/
theorem isEstimate_of_isMeasured (h : IsGuess v) (hv : Sinr.IsMeasured v) : IsEstimate v := by
  refine h.resolve_left fun heq => ?_
  rw [heq, Sinr.IsMeasured] at hv
  exact absurd hv (by decide +kernel)

/-- The sum of several estimates is infinite. -/
theorem sum_of_estimates {known : List Float} (h : ∀ v ∈ known, IsEstimate v)
    (hv : IsEstimate v) : known.foldl (· + ·) v = if known = [] then v else infinite := by
  have hadd : ∀ v w : Float, IsEstimate v → IsEstimate w → v + w = infinite := by
    rintro v w (rfl | rfl) (rfl | rfl) <;> decide +kernel
  induction known generalizing v with
  | nil => rfl
  | cons w known ih =>
    obtain ⟨hw, hknown⟩ := List.forall_mem_cons.1 h
    rw [List.foldl_cons, hadd v w hv hw, ih hknown (.inr rfl), if_neg (List.cons_ne_nil w known)]
    exact ite_self _

/-- The mean of estimates is one itself. -/
theorem isEstimate_mean {known : List Float} (h : ∀ w ∈ known, IsEstimate w) (hv : IsEstimate v)
    (hlen : known.length < maxBlocks) :
    IsEstimate ((v :: known).foldl (· + ·) (-0.0) / Float.ofNat (v :: known).length) := by
  have hzero : -0.0 + v = v := by rcases hv with rfl | rfl <;> decide +kernel
  rw [List.foldl_cons, hzero, sum_of_estimates h hv]
  split
  next hnil =>
    subst hnil
    refine Eq.subst (motive := IsEstimate) (Eq.symm ?_) hv
    rcases hv with rfl | rfl <;> decide +kernel
  next =>
    have hdiv : ∀ n < maxBlocks, infinite / Float.ofNat (n + 1) = infinite := by decide +kernel
    exact .inr (hdiv known.length hlen)

/-- An estimate from guesses is one of the two values. -/
theorem isEstimate_estimate (h : ∀ v ∈ samples, IsGuess v) (hlen : samples.length ≤ maxBlocks) :
    IsEstimate (estimate samples) := by
  have hmeasured : ∀ v ∈ measured samples, IsEstimate v := fun v hv =>
    isEstimate_of_isMeasured (h v (List.mem_filter.1 hv).1) (List.mem_filter.1 hv).2
  have hlength : (measured samples).length ≤ maxBlocks :=
    Nat.le_trans (List.length_filter_le _ _) hlen
  unfold estimate
  cases hknown : measured samples with
  | nil => exact .inl rfl
  | cons v known =>
    rw [hknown] at hmeasured hlength
    obtain ⟨hv, hrest⟩ := List.forall_mem_cons.1 hmeasured
    exact isEstimate_mean hrest hv hlength

/-- So is what is taken for the SINR of a block. -/
theorem isEstimate_blockSinr (h : ∀ v ∈ samples, IsGuess v) (hlen : samples.length ≤ maxBlocks)
    (b : Nat) : IsEstimate (blockSinr samples b) := by
  unfold blockSinr
  split
  next v hv =>
    split
    next hmeasured => exact isEstimate_of_isMeasured (h v (List.mem_of_getElem? hv)) hmeasured
    next => exact isEstimate_estimate h hlen
  next => exact isEstimate_estimate h hlen

/-! ## Reports -/

/-- Nothing is known of a UE but guesses. -/
structure Guessed (q : UplinkQuality) (r : Rnti) : Prop where
  /-- There is a guess for each block. -/
  length : (q.known r).length = q.bandwidth
  /-- All of them are guesses. -/
  samples : ∀ v ∈ q.known r, IsGuess v

/-- What is known of a UE is in its report. -/
theorem known_of_entry {a : Aged (List Float)} (h : q.sinr.entries[r]? = some a) :
    q.known r = a.value := by
  rw [known, AgingTable.get?, h]
  rfl

/-- Of a UE without a report nothing is known. -/
theorem guessed_of_entry (h : q.sinr.entries[r]? = none) : q.Guessed r := by
  have hknown : q.known r = padded [] q.bandwidth := by
    rw [known, AgingTable.get?, h]
    rfl
  constructor
  · rw [hknown, length_padded]
    exact Nat.zero_max _
  · rw [hknown]
    exact fun v hv => .inl (List.mem_replicate.1 hv).2

/-- It is told by the report of the UE and the width of the band. -/
theorem Guessed.congr (h : q.Guessed r) (hband : q'.bandwidth = q.bandwidth)
    (hentry : q'.sinr.entries[r]? = q.sinr.entries[r]?) : q'.Guessed r := by
  have hknown : q'.known r = q.known r := by
    rw [known, known, AgingTable.get?, AgingTable.get?, hentry, hband]
  exact ⟨by rw [hknown, hband, h.length], hknown ▸ h.samples⟩

/-- Ageing adds nothing to guesses. -/
theorem Guessed.refresh (h : q.Guessed r) : q.refresh.Guessed r := by
  have hentry : q.refresh.sinr.entries[r]? = _ := entries_refresh
  cases ha : q.sinr.entries[r]? with
  | none => exact guessed_of_entry (by rw [hentry, ha]; rfl)
  | some a =>
    rw [ha, Option.bind_some, Aged.tick] at hentry
    split at hentry
    · exact guessed_of_entry hentry
    · have hknown : q.refresh.known r = q.known r :=
        (known_of_entry hentry).trans (known_of_entry ha).symm
      exact ⟨hknown ▸ h.length, hknown ▸ h.samples⟩

/-- What is kept of guesses are guesses. -/
theorem Guessed.settle (h : q.Guessed r) (hlen : q.bandwidth ≤ maxBlocks) (r' : Rnti) (b : Nat) :
    (q.settle r' b).Guessed r := by
  have hentry : (q.settle r' b).sinr.entries[r]? = _ := entries_settle
  split at hentry
  · cases ha : q.sinr.entries[r]? with
    | none => exact guessed_of_entry (by rw [hentry, ha]; rfl)
    | some a =>
      rw [ha] at hentry
      have hknown := known_of_entry hentry
      obtain ⟨hlength, hsamples⟩ := h
      rw [known_of_entry ha] at hlength hsamples
      refine ⟨by rw [hknown, List.length_set]; exact hlength, fun v hv => ?_⟩
      rw [hknown] at hv
      rcases List.mem_or_eq_of_mem_set hv with hv | rfl
      · exact hsamples v hv
      · exact .inr (isEstimate_blockSinr hsamples (hlength ▸ hlen) b)
  · exact h.congr rfl hentry

/-- After looking at the SINR of some blocks. -/
inductive Settles (q : UplinkQuality) : UplinkQuality → Prop
  /-- Nothing was looked at. -/
  | refl : Settles q q
  /-- The SINR of one more block was looked at, which may fill in a guess. -/
  | settle {q' : UplinkQuality} (h : Settles q q') (r : Rnti) (b : Nat) :
      Settles q (q'.settle r b)

namespace Settles

/-- Blocks looked at one after the other. -/
theorem trans (h : Settles q q') (h' : Settles q' q'') : Settles q q'' := by
  induction h' with
  | refl => exact h
  | settle _ r b ih => exact ih.settle r b

/-- The band stays as wide as it is. -/
theorem bandwidth (h : Settles q q') : q'.bandwidth = q.bandwidth := by
  induction h with
  | refl => rfl
  | settle _ _ _ ih => exact ih

/-- Reports last as long as before. -/
theorem threshold (h : Settles q q') : q'.sinr.threshold = q.sinr.threshold := by
  induction h with
  | refl => rfl
  | settle _ _ _ ih => exact ih

/-- To look at a report makes it no fresher. -/
theorem remaining (h : Settles q q') (r : Rnti) :
    q'.sinr.entries[r]?.map (·.remaining) = q.sinr.entries[r]?.map (·.remaining) := by
  induction h with
  | refl => rfl
  | @settle q' _ r' b ih =>
    rw [← ih]
    rw [entries_settle]
    split
    · rw [Option.map_map]
      rfl
    · rfl

/-- Looking at blocks turns guesses into guesses. -/
theorem guessed (h : Settles q q') (hq : q.Guessed r) (hlen : q.bandwidth ≤ maxBlocks) :
    q'.Guessed r := by
  induction h with
  | refl => exact hq
  | settle h r' b ih => exact ih.settle (h.bandwidth ▸ hlen) r' b

end Settles

/-- The SINR of a block is taken from the report, if there is one. -/
theorem sinr?_eq_known (h : q.contains r = true) (b : Nat) :
    q.sinr? r b = some (blockSinr (q.known r) b) := by
  obtain ⟨a, ha⟩ := Table.exists_of_mem (Std.ExtTreeMap.mem_iff_contains.2 h)
  rw [known_of_entry ha, sinr?, AgingTable.get?, ha]
  rfl

end UplinkQuality

/-! ## Grants -/

namespace UplinkNew

open UplinkQuality

variable {setting : Setting} {round : Round} {blocks : List Nat} {mcs : Nat}

/-- To find the worst block of a stretch is to look at its blocks. -/
theorem settles_worstSinr (q : UplinkQuality) (r : Rnti) (blocks : List Nat) :
    q.Settles (worstSinr q r blocks).2 := by
  unfold worstSinr
  refine List.foldlRecOn (motive := fun (acc : Float × UplinkQuality) => q.Settles acc.2) blocks _
    .refl fun acc hacc block _ => ?_
  split
  · exact hacc
  · exact hacc.settle r block

/-- To choose a scheme is to look at the blocks of a stretch. -/
theorem settles_scheme (q : UplinkQuality) (r : Rnti) (blocks : List Nat) :
    q.Settles (scheme q r blocks).2 := by
  unfold scheme
  split
  · exact settles_worstSinr q r blocks
  · exact .refl

/-- If nothing but guesses is known, no block is worse than the largest number. -/
theorem worstSinr_of_guessed (h : q.Guessed r) (hlen : q.bandwidth ≤ maxBlocks)
    (blocks : List Nat) : (worstSinr q r blocks).1 = unlimited := by
  -- An estimate is the largest number or more, so no minimum gets below that.
  have hmin : ∀ v, IsEstimate v → floatMin unlimited v = unlimited := by
    rintro v (rfl | rfl) <;> decide +kernel
  unfold worstSinr
  -- Looking at a block may fill in a guess, so the report changes while the fold goes on, but it
  -- keeps holding guesses only.
  refine (List.foldlRecOn (motive := fun (acc : Float × UplinkQuality) =>
    q.Settles acc.2 ∧ acc.1 = unlimited) blocks _ ⟨.refl, rfl⟩ fun acc hacc block _ => ?_).2
  obtain ⟨hsettles, hacc⟩ := hacc
  cases hsinr : acc.2.sinr? r block with
  | none => exact ⟨hsettles, hacc⟩
  | some v =>
    refine ⟨hsettles.settle r block, ?_⟩
    have hguessed := hsettles.guessed h hlen
    have hcontains : acc.2.contains r = true := by
      rw [sinr?, AgingTable.get?, Option.map_map, Option.map_eq_some_iff] at hsinr
      obtain ⟨a, ha, -⟩ := hsinr
      exact Std.ExtTreeMap.mem_iff_contains.1 (Table.mem_of_getElem? ha)
    obtain rfl := Option.some.inj ((sinr?_eq_known hcontains block).symm.trans hsinr)
    rw [hacc]
    refine hmin _ (isEstimate_blockSinr hguessed.samples ?_ block)
    rw [hguessed.length, hsettles.bandwidth]
    exact hlen

/-- The scheme of a UE of which nothing but guesses is known: the most robust one if it has no
report, else that of the best channel. -/
theorem mcs_of_guessed (h : q.Guessed r) (hlen : q.bandwidth ≤ maxBlocks)
    (hmcs : (scheme q r blocks).1 = some mcs) :
    mcs = if q.contains r then LinkAdaptation.mcsOfCqi (LinkAdaptation.cqiOfSinr unlimited)
      else 0 := by
  unfold scheme at hmcs
  split at hmcs
  next hcontains =>
    rw [if_pos hcontains]
    dsimp only at hmcs
    rw [worstSinr_of_guessed h hlen] at hmcs
    split at hmcs
    · cases hmcs
    · exact (Option.some.inj hmcs).symm
  next hcontains =>
    rw [if_neg hcontains]
    exact (Option.some.inj hmcs).symm

/-- A UE of which nothing but guesses is known is not passed over for its channel, if the best one
is of any use. -/
theorem scheme_ne_none_of_guessed (h : q.Guessed r) (hlen : q.bandwidth ≤ maxBlocks)
    (husable : LinkAdaptation.cqiOfSinr unlimited ≠ 0) (blocks : List Nat) :
    (scheme q r blocks).1 ≠ none := by
  unfold scheme
  split
  · dsimp only
    rw [worstSinr_of_guessed h hlen, if_neg husable]
    exact Option.some_ne_none _
  · exact Option.some_ne_none _

/-- The schemes in a pass follow the reports `q`, apart from what was looked at meanwhile. -/
structure Round.Graded (q : UplinkQuality) (round : Round) : Prop where
  /-- The reports were looked at, and otherwise not changed. -/
  settles : q.Settles round.quality
  /-- The scheme of a grant follows such reports. -/
  scheme : ∀ g ∈ round.sent, ∃ q', q.Settles q' ∧
    (UplinkNew.scheme q' g.rnti g.blocks).1 = some g.mcs

/-- Serving a candidate looks at its blocks, and grants by what it finds there. -/
theorem Round.Graded.serve (h : round.Graded q) (r : Rnti) : (setting.serve round r).Graded q := by
  unfold Setting.serve
  split
  · exact h
  next start length _ =>
    have hsettles := h.settles.trans
      (settles_scheme round.quality r (List.range' start length))
    dsimp only
    split
    · exact ⟨hsettles, h.scheme⟩
    next mcs hmcs =>
      refine ⟨hsettles, List.forall_mem_append.2 ⟨h.scheme, fun g hg => ?_⟩⟩
      rw [List.mem_singleton.1 hg]
      exact ⟨round.quality, h.settles, hmcs⟩

/-- So the schemes of a whole pass follow the reports it began with. -/
theorem graded_serveAll (hq : round.quality = q) (hsent : round.sent = []) (cs : List Rnti) :
    (setting.serveAll round cs).Graded q := by
  have hstart : round.Graded q := ⟨hq ▸ .refl, by simp [hsent]⟩
  unfold Setting.serveAll
  split
  · exact hstart
  · exact List.foldlRecOn cs _ hstart fun round h r _ => h.serve r

end UplinkNew

namespace UplinkTrigger

/-- The schemes of new blocks follow the reports as they are after ageing. -/
theorem graded_fresh {Record : Type} (s : SchedulerState Record) (grid : Grid)
    (outcomes : List UplinkOutcome) :
    (fresh s grid outcomes).Graded s.uplink.quality.refresh := by
  unfold fresh sendNew
  split
  · exact ⟨.refl, by simp⟩
  · refine UplinkNew.graded_serveAll ?_ ?_ _ <;> rfl

end UplinkTrigger

end LteMac
