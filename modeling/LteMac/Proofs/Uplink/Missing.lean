import LteMac.Proofs.Uplink.Guesses
import LteMac.Proofs.Uplink.Leftover

/-!
# Missing samples

A report on data blocks may say of a block that it was not measured. That is credited like a
measurement: it takes away what was known of the block, it makes the report of the UE fresh, and a
UE that had none has one then, out of which the best channel is estimated.

The statement has two halves. The first is about one report. It is compared with itself, credited by
a map in which the missing samples belong to nobody (`BlockMap.heard`), and it is said exactly when
a UE does not feel the difference. The second is about a run, and asks what grants come of it. For
that, a report has to be told by the run alone: it lasts for as many triggers as the threshold says,
from the last sample that was credited to its UE, whether that was a measurement or not
(`Run.outlives_iff`). If no measurement is left (`Forgotten`), all that the report can hold is
guesses, and a guess is the best channel.

Every event does one of few things to the uplink reports (`Event.Reporting`), so both inductions
over the run are over these cases: the report is kept, erased with its UE, aged, or has samples
credited to it.

At the end there is a run in which this happens: UE 1 is granted the most robust scheme, a report
says that none of its blocks was measured, and UE 1 is granted the best scheme.

* `SchedulerState.creditSamples_heard_iff`: when a missing sample makes no difference to a UE;
* `Run.outlives_iff`: how long a report lasts;
* `Run.credited_missing`: what missing samples do to reports, and to the grants after them;
* `missing_sample_reported`: a report of a UE of which nothing was measured.
-/

namespace LteMac

variable {Record : Type} {policy : Policy Record} {config : SchedulerConfig}
  {es : List (Event Record)} {e : Event Record} {s s' : SchedulerState Record}
  {said : List Indication} {map : BlockMap} {codes : List UInt16} {r : Rnti} {i n : Nat}

/-! ## Crediting

A sample is credited to the UE that the map of its subframe names for the block, if that UE is still
there.
-/

/-- The map without the blocks that were not measured. -/
def BlockMap.heard (map : BlockMap) (codes : List UInt16) : BlockMap :=
  ⟨map.owners.mapIdx fun i r => if codes[i]? = some Sinr.unmeasuredCode then 0 else r⟩

/-- A block keeps its owner, unless it was not measured. -/
theorem BlockMap.owner_heard : (map.heard codes).owner? i =
    (map.owner? i).map fun r => if codes[i]? = some Sinr.unmeasuredCode then 0 else r := by
  simp [heard, owner?]

/-- The code of a missing sample stands for one. -/
theorem decode_unmeasuredCode : Sinr.decode Sinr.unmeasuredCode = Sinr.unmeasured := if_pos rfl

namespace SchedulerState

/-- A missing sample is credited to a UE. -/
def Misses (s : SchedulerState Record) (map : BlockMap) (codes : List UInt16) (r : Rnti)
    (i : Nat) : Prop :=
  s.Credits map r i ∧ codes[i]? = some Sinr.unmeasuredCode

/-- A measurement is credited to a UE. -/
def Hears (s : SchedulerState Record) (map : BlockMap) (codes : List UInt16) (r : Rnti)
    (i : Nat) : Prop :=
  s.Credits map r i ∧ ∃ code, codes[i]? = some code ∧ code ≠ Sinr.unmeasuredCode

/-- The map that a report on a subframe is credited by is the only one of the subframe. -/
theorem map_of_find? (h : s.Consistent) {time : Subframe} {past : Subframe × BlockMap}
    (hpast : s.uplink.history.find? (·.1 = time) = some past) :
    (time, past.2) ∈ s.uplink.history ∧ past.2.size = s.uplink.quality.bandwidth ∧
      ∀ map, (time, map) ∈ s.uplink.history → map = past.2 := by
  obtain rfl : past.1 = time := by simpa using List.find?_some hpast
  have hmem := List.mem_of_find?_eq_some hpast
  refine ⟨hmem, by rw [h.uplink.history _ hmem, h.uplink.bandwidth], fun map hmap => ?_⟩
  exact congrArg Prod.snd (List.inj_on_of_nodup_map h.uplink.subframes hmap hmem rfl)

/-- A sample is not both missing and a measurement. -/
theorem Misses.not_hears (h : s.Misses map codes r i) : ¬s.Hears map codes r i :=
  fun ⟨_, _, hcode, hne⟩ => hne (Option.some.inj (hcode.symm.trans h.2))

/-- A sample that is credited is missing, or not. -/
theorem misses_or_hears : s.Misses map codes r i ∨ s.Hears map codes r i ↔
    i < codes.length ∧ s.Credits map r i := by
  constructor
  · rintro (⟨hcredits, hcode⟩ | ⟨hcredits, code, hcode, -⟩) <;>
      exact ⟨(List.getElem?_eq_some_iff.1 hcode).1, hcredits⟩
  · rintro ⟨hi, hcredits⟩
    have hcode := List.getElem?_eq_getElem hi
    by_cases hmissing : codes[i] = Sinr.unmeasuredCode
    · exact .inl ⟨hcredits, hmissing ▸ hcode⟩
    · exact .inr ⟨hcredits, codes[i], hcode, hmissing⟩

/-- Without the missing samples, measurements are all that is credited. -/
theorem credits_heard : i < codes.length ∧ s.Credits (map.heard codes) r i ↔
    s.Hears map codes r i := by
  rw [Hears, Credits, Credits, BlockMap.owner_heard]
  constructor
  · rintro ⟨hi, howner, hr, hue⟩
    obtain ⟨r', hr', heq⟩ := Option.map_eq_some_iff.1 howner
    split at heq
    · exact absurd heq.symm hr
    next hcode =>
      subst heq
      refine ⟨⟨hr', hr, hue⟩, codes[i], List.getElem?_eq_getElem hi, fun hmissing => hcode ?_⟩
      rw [List.getElem?_eq_getElem hi, hmissing]
  · rintro ⟨⟨howner, hr, hue⟩, code, hcode, hne⟩
    refine ⟨(List.getElem?_eq_some_iff.1 hcode).1, ?_, hr, hue⟩
    rw [howner, Option.map_some, if_neg fun hmissing => hne ?_]
    exact Option.some.inj (hcode.symm.trans hmissing)

end SchedulerState

namespace UplinkQuality

variable {q q' : UplinkQuality}

/-- The report of a UE is told by what is known of its blocks and how fresh that is. -/
theorem entry_eq_iff (hband : q.bandwidth = q'.bandwidth) :
    q.sinr.entries[r]? = q'.sinr.entries[r]? ↔
      q.known r = q'.known r ∧
        q.sinr.entries[r]?.map (·.remaining) = q'.sinr.entries[r]?.map (·.remaining) := by
  constructor
  · intro h
    rw [known, known, AgingTable.get?, AgingTable.get?, h, hband]
    exact ⟨rfl, rfl⟩
  · rintro ⟨hknown, htimer⟩
    cases ha : q.sinr.entries[r]? with
    | none => cases ha' : q'.sinr.entries[r]? <;> simp_all
    -- With a report on both sides, its samples are what is known, and its timer is how fresh that
    -- is.
    | some a =>
      cases ha' : q'.sinr.entries[r]? with
      | none => simp_all
      | some a' =>
        rw [known_of_entry ha, known_of_entry ha'] at hknown
        rw [ha, ha'] at htimer
        obtain ⟨value, remaining⟩ := a
        obtain ⟨value', remaining'⟩ := a'
        exact congrArg some (Aged.mk.injEq .. ▸ ⟨hknown, Option.some.inj htimer⟩)

end UplinkQuality

namespace SchedulerState

/-- A report comes to the same for a UE as if its missing samples were credited to nobody exactly if
nothing was known of these blocks, and if the report of the UE is fresh anyway. -/
theorem creditSamples_heard_iff (hsize : map.size = s.uplink.quality.bandwidth)
    (hcovers : s.uplink.quality.Covers (· ∈ s.ues)) (codes : List UInt16) (r : Rnti) :
    (s.creditSamples map (codes.map Sinr.decode)).sinr.entries[r]? =
        (s.creditSamples (map.heard codes) (codes.map Sinr.decode)).sinr.entries[r]? ↔
      (∀ i, s.Misses map codes r i →
        (s.uplink.quality.known r)[i]? = some Sinr.unmeasured) ∧
      ((∃ i, s.Misses map codes r i) → (∃ i, s.Hears map codes r i) ∨
        s.uplink.quality.sinr.entries[r]?.map (·.remaining) =
          some s.uplink.quality.sinr.threshold) := by
  have hall := s.credited_creditSamples hsize hcovers (codes.map Sinr.decode)
  have hsize' : (map.heard codes).size = s.uplink.quality.bandwidth :=
    Array.size_mapIdx.trans hsize
  have hheard := s.credited_creditSamples hsize' hcovers (codes.map Sinr.decode)
  generalize s.creditSamples map (codes.map Sinr.decode) = q at hall
  generalize s.creditSamples (map.heard codes) (codes.map Sinr.decode) = q' at hheard
  have hcredits : ∀ i, i < (codes.map Sinr.decode).length ∧ s.Credits map r i ↔
      s.Misses map codes r i ∨ s.Hears map codes r i := fun i => by
    rw [List.length_map]
    exact misses_or_hears.symm
  have hhears : ∀ i, i < (codes.map Sinr.decode).length ∧ s.Credits (map.heard codes) r i ↔
      s.Hears map codes r i := fun i => by
    rw [List.length_map]
    exact credits_heard
  -- The reports about a UE are the same if their values are and their timers are.
  rw [UplinkQuality.entry_eq_iff (hall.bandwidth.trans hheard.bandwidth.symm)]
  refine and_congr ?_ ?_
  · rw [List.ext_getElem?_iff]
    refine forall_congr' fun i => ?_
    by_cases hi : s.Hears map codes r i
    · have hmeasured := (hcredits i).2 (.inr hi)
      have hmeasured' := (hhears i).2 hi
      rw [hall.measured r i hmeasured.1 hmeasured.2,
        hheard.measured r i hmeasured'.1 hmeasured'.2]
      exact iff_of_true rfl fun hmiss => absurd hi hmiss.not_hears
    · rw [hheard.others r i ((hhears i).not.2 hi)]
      by_cases hmiss : s.Misses map codes r i
      · have hmeasured := (hcredits i).2 (.inl hmiss)
        rw [hall.measured r i hmeasured.1 hmeasured.2, List.getElem?_map, hmiss.2,
          Option.map_some, decode_unmeasuredCode, eq_comm]
        exact ⟨fun h _ => h, fun h => h hmiss⟩
      · rw [hall.others r i ((hcredits i).not.2 (not_or.2 ⟨hmiss, hi⟩))]
        exact iff_of_true rfl fun h => absurd h hmiss
  -- A measurement starts the timer in both cases. Without one, the missing samples alone do, and
  -- only where they are credited.
  · by_cases hi : ∃ i, s.Hears map codes r i
    · rw [hall.fresh r (hi.imp fun i h => (hcredits i).2 (.inr h)),
        hheard.fresh r (hi.imp fun i h => (hhears i).2 h)]
      exact iff_of_true rfl fun _ => .inl hi
    · rw [hheard.kept r fun i hlt h => hi ⟨i, (hhears i).1 ⟨hlt, h⟩⟩]
      by_cases hmiss : ∃ i, s.Misses map codes r i
      · rw [hall.fresh r (hmiss.imp fun i h => (hcredits i).2 (.inl h)), eq_comm]
        simp only [hmiss, hi, forall_const, false_or]
      · rw [hall.kept r fun i hlt h =>
          ((hcredits i).1 ⟨hlt, h⟩).elim (fun h => hmiss ⟨i, h⟩) fun h => hi ⟨i, h⟩]
        exact iff_of_true rfl fun h => absurd h hmiss

end SchedulerState

/-! ## Effects

What an event may do to the uplink reports in a cell that takes them on data blocks.
-/

namespace Event

/-- The event is a report on data blocks, and credits a sample to a UE. -/
def Credits (e : Event Record) (r : Rnti) (code : UInt16) : Prop :=
  ∃ time codes rnti map i, e.request = .sinr time .data codes rnti ∧
    (time, map) ∈ e.before.uplink.history ∧ codes[i]? = some code ∧ e.before.Credits map r i

/-- An event without a report on data blocks credits nothing. -/
theorem not_credits (h : e.reported? = none) (r : Rnti) (code : UInt16) : ¬e.Credits r code := by
  rintro ⟨time, codes, rnti, map, i, hrequest, -⟩
  rw [reported?, hrequest] at h
  cases h

/-- What becomes of the uplink reports in an event that is no report on data blocks: they are kept,
those of a released UE are erased, or they are all aged by a trigger. In the first case the
bandwidth may change, but only before there are any reports. -/
inductive Reporting (e : Event Record) : Prop
  /-- The reports stay as they are. -/
  | kept (hup : e.isUplink = false) (hkept : ∀ r, e.releases r = false)
      (hcredits : ∀ r code, ¬e.Credits r code)
      (hsinr : e.after.uplink.quality.sinr = e.before.uplink.quality.sinr)
      (hband : e.after.uplink.quality.bandwidth = e.before.uplink.quality.bandwidth ∨
        ∀ r : Rnti, e.before.uplink.quality.sinr.entries[r]? = none)
  /-- A UE is released and loses its report. -/
  | released (r : Rnti) (hup : e.isUplink = false)
      (hreleases : ∀ r', e.releases r' = true ↔ r = r')
      (hcredits : ∀ r code, ¬e.Credits r code)
      (hquality : e.after.uplink.quality = e.before.uplink.quality.erase r)
  /-- A trigger takes a subframe off all reports, and then looks at some of them. -/
  | aged (hup : e.isUplink = true) (hkept : ∀ r, e.releases r = false)
      (hcredits : ∀ r code, ¬e.Credits r code)
      (hlen : e.before.uplink.quality.bandwidth ≤ UplinkQuality.maxBlocks)
      (hsettles : e.before.uplink.quality.refresh.Settles e.after.uplink.quality)
  /-- Samples of a past subframe are credited to those who sent there. -/
  | credited (map : BlockMap) (codes : List UInt16)
      (hup : e.isUplink = false) (hkept : ∀ r, e.releases r = false)
      (hcredits : ∀ r code, e.Credits r code ↔
        ∃ i, codes[i]? = some code ∧ e.before.Credits map r i)
      (hcredited : Credited e.before map (codes.map Sinr.decode) e.before.uplink.quality
        e.after.uplink.quality)

end Event

/-- Standard bandwidths are within what a report has room for. -/
theorem Grid.uplink_le {grid : Grid} (h : grid.uplink ∈ standardBandwidths) :
    grid.uplink ≤ UplinkQuality.maxBlocks := by
  have hall : ∀ n ∈ standardBandwidths, n ≤ UplinkQuality.maxBlocks := by decide
  exact hall _ h

/-- Every accepted request is a report on data blocks, or has one of these effects. -/
theorem SchedulerState.reporting_of_step (h : Reachable policy config s)
    (hsource : config.sinrSource = .data) {q : Request}
    (hstep : s.step policy q = .ok (s', said)) : Event.Reporting ⟨s, q, s', said⟩ := by
  have hconsistent := h.consistent
  cases accepted_of_step hstep with
  | cell hgrid =>
    refine .kept rfl (fun _ => rfl) (Event.not_credits rfl) rfl (.inr fun r => ?_)
    -- Nobody was served before.
    refine Table.not_mem_iff.1 fun hr => ?_
    obtain ⟨a, ha⟩ := Table.exists_of_mem hr
    have hue := (hconsistent.uplink.quality r a ha).1
    simpa [hgrid] using (hconsistent.served r hue).1
  | removed =>
    exact .released _ rfl (fun _ => decide_eq_true_iff) (Event.not_credits rfl) rfl
  | @uplink time outcomes grid _ hgrid =>
    refine .aged rfl (fun _ => rfl) (Event.not_credits rfl) ?_
      (UplinkTrigger.graded_fresh s grid outcomes).settles
    change s.uplink.quality.bandwidth ≤ _
    rw [hconsistent.uplink.bandwidth, blocks, hgrid]
    exact Grid.uplink_le (h.invariant.grid grid hgrid).2
  | @sinrIgnored time source codes rnti _ hother =>
    cases source with
    | data => exact absurd (by rw [h.invariant.config, hsource]) hother
    | sounding => exact .kept rfl (fun _ => rfl) (Event.not_credits rfl) rfl (.inl rfl)
  | sounded _ hsounding =>
    rw [h.invariant.config, hsource] at hsounding
    cases hsounding
  | @unattributed time codes rnti _ _ hnone =>
    refine .kept rfl (fun _ => rfl) ?_ rfl (.inl rfl)
    rintro r code ⟨time', codes', rnti', map, i, heq, hmem, -⟩
    cases heq
    simpa using List.find?_eq_none.1 hnone _ hmem
  | @credited time codes rnti past _ _ hpast =>
    obtain ⟨hmem, hsize, honly⟩ := map_of_find? hconsistent hpast
    refine .credited past.2 codes rfl (fun _ => rfl) (fun r code => ⟨?_, ?_⟩)
      (s.credited_creditSamples hsize hconsistent.uplink.quality (codes.map Sinr.decode))
    · rintro ⟨time', codes', rnti', map, i, heq, hmap, hcode, hcredits⟩
      cases heq
      exact ⟨i, hcode, honly map hmap ▸ hcredits⟩
    · rintro ⟨i, hcode, hcredits⟩
      exact ⟨time, codes, rnti, past.2, i, rfl, hmem, hcode, hcredits⟩
  | qualityTaken =>
    have huplink := s.uplink_learned
    exact .kept rfl (fun _ => rfl) (Event.not_credits rfl) (by simp only [huplink])
      (.inl (by simp only [huplink]))
  | requested =>
    have hquality := uplink_foldl (·.quality) (f := fun (s : SchedulerState Record) r =>
      s.modifyUplinkUe r fun u => { u with requested := true }) (fun _ _ => rfl)
    exact .kept rfl (fun _ => rfl) (Event.not_credits rfl) (congrArg (·.sinr) (hquality _ s))
      (.inl (congrArg (·.bandwidth) (hquality _ s)))
  | controlsTaken =>
    have hquality := uplink_foldl (·.quality)
      (f := fun (s : SchedulerState Record) control => s.takeControl control)
      fun s control => by rw [s.uplink_takeControl]
    exact .kept rfl (fun _ => rfl) (Event.not_credits rfl) (congrArg (·.sinr) (hquality _ s))
      (.inl (congrArg (·.bandwidth) (hquality _ s)))
  | _ => exact .kept rfl (fun _ => rfl) (Event.not_credits rfl) rfl (.inl rfl)

/-! ## Reports along a run

How long a report lasts, and what is in it, told by the events of a run.
-/

/-- The report of a UE lasts for some more refreshes. -/
def UplinkQuality.Outlives (q : UplinkQuality) (r : Rnti) (n : Nat) : Prop :=
  ∃ m, q.sinr.entries[r]?.map (·.remaining) = some m ∧ n ≤ m

namespace UplinkQuality

variable {q : UplinkQuality}

/-- A report that lasts at all is one that there is. -/
theorem outlives_zero : q.Outlives r 0 ↔ q.contains r = true := by
  rw [contains, AgingTable.contains, ← Std.ExtTreeMap.mem_iff_contains,
    Std.ExtTreeMap.mem_iff_isSome_getElem?, Option.isSome_iff_exists, Outlives]
  simp

/-- A refresh takes one off. -/
theorem outlives_refresh : q.refresh.Outlives r n ↔ q.Outlives r (n + 1) := by
  rw [Outlives, Outlives, entries_refresh]
  cases q.sinr.entries[r]? with
  | none => simp
  | some a =>
    rw [Option.bind_some, Aged.tick]
    split
    next hzero => simp [hzero]
    next hpos =>
      simp only [Option.map_some, Option.some.injEq, exists_eq_left']
      omega

end UplinkQuality

/-- A sample was credited to a UE that was not released since, and with the given threshold that
report lasts for `n` more uplink triggers. -/
def Lasts (es : List (Event Record)) (r : Rnti) (code : UInt16) (threshold n : Nat) : Prop :=
  ∃ before e since, es = before ++ e :: since ∧ e.Credits r code ∧
    (∀ e' ∈ since, e'.releases r = false) ∧ since.countP (·.isUplink) + n ≤ threshold

/-- In the last event of a run, either a sample is credited, and the count begins anew, or the count
goes on, provided the UE is not released. -/
theorem lasts_concat {code : UInt16} {threshold : Nat} : Lasts (es ++ [e]) r code threshold n ↔
    e.Credits r code ∧ n ≤ threshold ∨ e.releases r = false ∧
      Lasts es r code threshold (n + if e.isUplink then 1 else 0) := by
  constructor
  · rintro ⟨before, e₀, since, hes, hcredits, hkept, hcount⟩
    obtain ⟨rfl, rfl, rfl⟩ | ⟨since, rfl, rfl⟩ := concat_eq_append_cons.1 hes
    · exact .inl ⟨hcredits, by simpa using hcount⟩
    · obtain ⟨hkept, hlast⟩ := List.forall_mem_append.1 hkept
      rw [List.countP_append, List.countP_singleton] at hcount
      exact .inr ⟨hlast e (List.mem_singleton_self e), before, e₀, since, rfl, hcredits, hkept,
        by omega⟩
  · rintro (⟨hcredits, hn⟩ | ⟨hlast, before, e₀, since, rfl, hcredits, hkept, hcount⟩)
    · exact ⟨es, e, [], rfl, hcredits, List.forall_mem_nil _, by simpa using hn⟩
    · refine ⟨before, e₀, since ++ [e], by simp, hcredits,
        List.forall_mem_append.2 ⟨hkept, by simpa using hlast⟩, ?_⟩
      rw [List.countP_append, List.countP_singleton]
      omega

namespace Event.Reporting

/-- The threshold is set once and for all. -/
theorem threshold (h : e.Reporting) :
    e.after.uplink.quality.sinr.threshold = e.before.uplink.quality.sinr.threshold := by
  cases h with
  | kept _ _ _ hsinr => rw [hsinr]
  | released r _ _ _ hquality => rw [hquality]; rfl
  | aged _ _ _ _ hsettles => exact hsettles.threshold
  | credited _ _ _ _ _ hcredited => exact hcredited.threshold

/-- How long a report lasts after an event: as long as the threshold says, if a sample was credited,
and as long as before less the trigger that the event may be, if not. -/
theorem outlives (h : e.Reporting) : e.after.uplink.quality.Outlives r n ↔
    (∃ code, e.Credits r code) ∧ n ≤ e.before.uplink.quality.sinr.threshold ∨
      (∀ code, ¬e.Credits r code) ∧ e.releases r = false ∧
        e.before.uplink.quality.Outlives r (n + if e.isUplink then 1 else 0) := by
  cases h with
  | kept hup hkept hcredits hsinr =>
    simp [hcredits r, hkept r, hup, UplinkQuality.Outlives, hsinr]
  | released r' hup hreleases hcredits hquality =>
    have hkept : e.releases r = false ↔ r ≠ r' := by
      rw [← Bool.not_eq_true, hreleases, ne_comm]
    simp only [hcredits r, hkept, hup, UplinkQuality.Outlives, hquality,
      UplinkQuality.entries_erase]
    by_cases hr : r = r' <;> simp [hr]
  | aged hup hkept hcredits _ hsettles =>
    have hlasts : e.after.uplink.quality.Outlives r n ↔
        e.before.uplink.quality.Outlives r (n + 1) := by
      rw [← UplinkQuality.outlives_refresh, UplinkQuality.Outlives, hsettles.remaining r]
      rfl
    simp [hlasts, hcredits r, hkept r, hup]
  | credited map codes hup hkept hcredits hcredited =>
    by_cases hany : ∃ code, e.Credits r code
    -- A measurement makes the entry as fresh as it can be.
    · have hfresh := hcredited.fresh r <| by
        obtain ⟨code, hcode⟩ := hany
        obtain ⟨i, hi, hcredits⟩ := (hcredits r code).1 hcode
        refine ⟨i, ?_, hcredits⟩
        rw [List.length_map]
        exact (List.getElem?_eq_some_iff.1 hi).1
      rw [UplinkQuality.Outlives, hfresh]
      have hnone : ¬∀ code, ¬e.Credits r code := not_forall_not.2 hany
      simp [hany, hnone]
    -- Nothing was credited, so the entry is the one that there was.
    · have hsame := hcredited.kept r fun i hi hcredited => hany <| by
        rw [List.length_map] at hi
        exact ⟨codes[i], (hcredits r _).2 ⟨i, List.getElem?_eq_getElem hi, hcredited⟩⟩
      simp [not_exists.1 hany, hkept r, hup, UplinkQuality.Outlives, hsame]

/-- Missing samples add nothing to guesses: a report that holds no measurement still holds none
after them. -/
theorem guessed (h : e.Reporting) (hguessed : e.before.uplink.quality.Guessed r)
    (hmissing : ∀ code, e.Credits r code → code = Sinr.unmeasuredCode) :
    e.after.uplink.quality.Guessed r := by
  cases h with
  | kept _ _ _ hsinr hband =>
    rcases hband with hband | hnone
    · exact hguessed.congr hband (by rw [hsinr])
    -- The bandwidth changed, but there was no report yet.
    · exact UplinkQuality.guessed_of_entry (by rw [hsinr]; exact hnone r)
  | released r' _ _ _ hquality =>
    rw [hquality]
    have hentry : (e.before.uplink.quality.erase r').sinr.entries[r]? = _ :=
      UplinkQuality.entries_erase
    split at hentry
    · exact UplinkQuality.guessed_of_entry hentry
    · exact hguessed.congr rfl hentry
  | aged _ _ _ hlen hsettles => exact hsettles.guessed hguessed.refresh hlen
  -- A sample that was credited is missing by hypothesis, and the others were guesses before.
  | credited map codes _ _ hcredits hcredited =>
    refine ⟨by rw [hcredited.length, hguessed.length, hcredited.bandwidth], fun v hv => ?_⟩
    obtain ⟨i, hi⟩ := List.mem_iff_getElem?.1 hv
    by_cases hcredit : i < (codes.map Sinr.decode).length ∧ e.before.Credits map r i
    · rw [hcredited.measured r i hcredit.1 hcredit.2, List.getElem?_map] at hi
      obtain ⟨code, hcode, rfl⟩ := Option.map_eq_some_iff.1 hi
      rw [hmissing code ((hcredits r code).2 ⟨i, hcode, hcredit.2⟩), decode_unmeasuredCode]
      exact .inl rfl
    · rw [hcredited.others r i hcredit] at hi
      exact hguessed.samples v (List.mem_of_getElem? hi)

end Event.Reporting

/-- Uplink reports in such a cell have the threshold of its configuration. -/
theorem Reachable.threshold (h : Reachable policy config s) (hsource : config.sinrSource = .data) :
    s.uplink.quality.sinr.threshold = config.cqiThreshold := by
  obtain ⟨es, hrun⟩ := h
  induction hrun with
  | start => rfl
  | step hrun hstep ih =>
    exact (SchedulerState.reporting_of_step hrun.reachable hsource hstep).threshold.trans ih

/-- The report of a UE lasts as long as the last sample that was credited to it. Both sides are told
event by event, and the two recurrences agree. -/
theorem Run.outlives_iff (hrun : Run policy config es s) (hsource : config.sinrSource = .data) :
    s.uplink.quality.Outlives r n ↔ ∃ code, Lasts es r code config.cqiThreshold n := by
  induction hrun generalizing n with
  -- At the start there is no report, and no event that could have credited anything.
  | start =>
    refine iff_of_false (fun h => ?_) ?_
    · obtain ⟨m, hm, -⟩ := h
      simp [SchedulerState.initial, UplinkQuality.empty, AgingTable.empty] at hm
    · rintro ⟨code, before, e, since, hes, -⟩
      simp at hes
  | @step es s s' q said hrun hstep ih =>
    have heffect := SchedulerState.reporting_of_step hrun.reachable hsource hstep
    refine heffect.outlives.trans ?_
    -- With one more event, the report lasts anew if a sample was credited, and one refresh less if
    -- the event was an uplink trigger.
    rw [hrun.reachable.threshold hsource, ih]
    simp only [lasts_concat]
    constructor
    · rintro (⟨⟨code, hcode⟩, hn⟩ | ⟨-, hkept, code, hlasts⟩)
      · exact ⟨code, .inl ⟨hcode, hn⟩⟩
      · exact ⟨code, .inr ⟨hkept, hlasts⟩⟩
    · rintro ⟨code, ⟨hcode, hn⟩ | ⟨hkept, hlasts⟩⟩
      · exact .inl ⟨⟨code, hcode⟩, hn⟩
      -- A report that lasts after the event is fresh if the event credited some other sample.
      · by_cases hany : ∃ code', Event.Credits ⟨s, q, s', said⟩ r code'
        · obtain ⟨before, e, since, -, -, -, hcount⟩ := hlasts
          exact .inl ⟨hany, by omega⟩
        · exact .inr ⟨not_exists.1 hany, hkept, code, hlasts⟩

/-- No measurement of a UE is left: after each of them the UE was without a report at some time. It
may have been released then, or its report expired. -/
def Forgotten (es : List (Event Record)) (r : Rnti) : Prop :=
  ∀ before e since code, es = before ++ e :: since → e.Credits r code →
    code ≠ Sinr.unmeasuredCode → ∃ e' ∈ since, e'.after.uplink.quality.contains r = false

/-- A report of which no measurement is left holds guesses only. -/
theorem Run.guessed (hrun : Run policy config es s) (hsource : config.sinrSource = .data)
    (h : Forgotten es r) : s.uplink.quality.Guessed r := by
  induction hrun with
  | start => exact UplinkQuality.guessed_of_entry (by
      simp [SchedulerState.initial, UplinkQuality.empty, AgingTable.empty])
  | @step es s s' q said hrun hstep ih =>
    by_cases hentry : s'.uplink.quality.sinr.entries[r]? = none
    · exact UplinkQuality.guessed_of_entry hentry
    · have hcontains : s'.uplink.quality.contains r = true := by
        obtain ⟨a, ha⟩ := Option.ne_none_iff_exists'.1 hentry
        exact Std.ExtTreeMap.mem_iff_contains.1 (Table.mem_of_getElem? ha)
      -- Had a measurement been left before the event, it would be left now, since the UE still has
      -- a report.
      have hbefore : Forgotten es r := by
        rintro before e since code rfl hcredits hcode
        obtain ⟨e', he', hnone⟩ := h before e (since ++ [⟨s, q, s', said⟩]) code (by simp)
          hcredits hcode
        rcases List.mem_append.1 he' with he' | hlast
        · exact ⟨e', he', hnone⟩
        · rw [List.mem_singleton.1 hlast, hcontains] at hnone
          cases hnone
      refine (SchedulerState.reporting_of_step hrun.reachable hsource hstep).guessed (ih hbefore)
        fun code hcredits => ?_
      -- The event itself credits no measurement either, because nothing came after it that could
      -- have made the UE lose it.
      by_contra hcode
      obtain ⟨e', he', -⟩ := h es _ [] code rfl hcredits hcode
      cases he'

/-- A report that lasts after all measurements are lost is there for a missing sample. -/
theorem Forgotten.lasts (h : Forgotten es r) (hrun : Run policy config es s)
    (hsource : config.sinrSource = .data) {code : UInt16}
    (hlasts : Lasts es r code config.cqiThreshold n) : code = Sinr.unmeasuredCode := by
  by_contra hcode
  obtain ⟨before, e, since, rfl, hcredits, hkept, hcount⟩ := hlasts
  obtain ⟨e', he', hnone⟩ := h before e since code rfl hcredits hcode
  obtain ⟨since, later, rfl⟩ := List.append_of_mem he'
  -- The report lasted until that event.
  have hsplit : before ++ e :: (since ++ e' :: later) = (before ++ e :: since) ++ e' :: later := by
    rw [List.append_assoc, List.cons_append]
  rw [hsplit] at hrun
  obtain ⟨hbefore, hstep⟩ := hrun.before_of_getElem? (n := (before ++ e :: since).length) (e := e')
    (by simp)
  rw [List.take_left] at hbefore
  have hlasted : Lasts (before ++ e :: since ++ [e']) r code config.cqiThreshold 0 := by
    refine ⟨before, e, since ++ [e'], by simp, hcredits, fun e₀ he₀ => hkept e₀ ?_, ?_⟩
    · rcases List.mem_append.1 he₀ with he₀ | he₀
      · exact List.mem_append_left _ he₀
      · exact List.mem_append_right _ (List.mem_singleton.1 he₀ ▸ List.mem_cons_self)
    · rw [List.countP_append, List.countP_cons] at hcount
      rw [List.countP_append, List.countP_singleton]
      omega
  have hcontains := UplinkQuality.outlives_zero.1
    (((hbefore.step hstep).outlives_iff hsource).2 ⟨code, hlasted⟩)
  rw [hnone] at hcontains
  cases hcontains

/-- There are samples for no more blocks than any uplink has. -/
theorem Run.refresh_bandwidth_le (hrun : Run policy config es s) {grid : Grid}
    (hgrid : s.grid = some grid) :
    s.uplink.quality.refresh.bandwidth ≤ UplinkQuality.maxBlocks := by
  change s.uplink.quality.bandwidth ≤ _
  rw [hrun.reachable.consistent.uplink.bandwidth, SchedulerState.blocks, hgrid]
  exact Grid.uplink_le (hrun.reachable.invariant.grid grid hgrid).2

/-- The schemes of the first grants follow the reports as well. -/
theorem UplinkTrigger.graded_freshAfter (s : SchedulerState Record) (grid : Grid)
    (outcomes : List UplinkOutcome) (cs : List Rnti) :
    (freshAfter s grid outcomes cs).Graded s.uplink.quality.refresh :=
  List.foldlRecOn cs _ ⟨.refl, by simp⟩ fun _ h r _ => h.serve r

/-- Every new grant of an uplink trigger to a UE of which no measurement is left: while a report
lasts, the scheme of the best channel, and the most robust one else. The trigger ages the reports
before it grants, so a report has to last for one more refresh to count. -/
theorem Run.mcs_of_forgotten (hrun : Run policy config es s) (hsource : config.sinrSource = .data)
    (h : Forgotten es r) {grid : Grid} (hgrid : s.grid = some grid)
    (outcomes : List UplinkOutcome) {g : UplinkGrant}
    (hg : g ∈ (UplinkTrigger.fresh s grid outcomes).sent) (hr : g.rnti = r) :
    (Lasts es r Sinr.unmeasuredCode config.cqiThreshold 1 →
      g.mcs = LinkAdaptation.mcsOfCqi (LinkAdaptation.cqiOfSinr UplinkQuality.unlimited)) ∧
    (¬Lasts es r Sinr.unmeasuredCode config.cqiThreshold 1 → g.mcs = 0) := by
  subst hr
  have hlen := hrun.refresh_bandwidth_le hgrid
  obtain ⟨q, hsettles, hmcs⟩ := (UplinkTrigger.graded_fresh s grid outcomes).scheme g hg
  -- All that is known of the UE are guesses, so its scheme depends on whether it has a report.
  have hguessed := hsettles.guessed (hrun.guessed hsource h).refresh hlen
  have hgrade := UplinkNew.mcs_of_guessed hguessed (hsettles.bandwidth ▸ hlen) hmcs
  -- Whether there is a report when the UE is granted something is told by the run.
  have hreport : q.contains g.rnti = true ↔
      Lasts es g.rnti Sinr.unmeasuredCode config.cqiThreshold 1 := by
    rw [← UplinkQuality.outlives_zero, UplinkQuality.Outlives, hsettles.remaining]
    refine (UplinkQuality.outlives_refresh.trans (hrun.outlives_iff hsource)).trans ?_
    constructor
    · rintro ⟨code, hlasts⟩
      exact h.lasts hrun hsource hlasts ▸ hlasts
    · exact fun hlasts => ⟨_, hlasts⟩
  constructor
  · intro hlasts
    rw [hgrade, if_pos (hreport.2 hlasts)]
  · intro hlasts
    rw [hgrade, if_neg (hreport.not.2 hlasts)]

/-- A UE of which no measurement is left is not passed over for its channel, at whatever turn, if
the best channel is of any use. -/
theorem Run.reachable_of_forgotten (hrun : Run policy config es s)
    (hsource : config.sinrSource = .data) (h : Forgotten es r) {grid : Grid}
    (hgrid : s.grid = some grid) (outcomes : List UplinkOutcome)
    (husable : LinkAdaptation.cqiOfSinr UplinkQuality.unlimited ≠ 0) (before : List Rnti) :
    ¬UplinkTrigger.Unreachable s grid outcomes before r := by
  rintro ⟨first, length, -, hnone⟩
  have hlen := hrun.refresh_bandwidth_le hgrid
  have hsettles := (UplinkTrigger.graded_freshAfter s grid outcomes before).settles
  refine UplinkNew.scheme_ne_none_of_guessed ?_ (hsettles.bandwidth ▸ hlen) husable _ hnone
  exact hsettles.guessed (hrun.guessed hsource h).refresh hlen

/-- A report on data blocks credits its missing samples as well: it comes to the same as if it did
not exactly if nothing was known of these blocks and the report of their UE is made fresh by other
samples, or was just as fresh before. And a UE of which no measurement is left is granted the best
scheme while a report lasts that is there for a missing sample, and the most robust one else. -/
theorem Run.credited_missing (hrun : Run policy config es s) :
    (∀ time codes rnti s' said, s.step policy (.sinr time .data codes rnti) = .ok (s', said) →
      (config.sinrSource ≠ .data ∨ (∀ past ∈ s.uplink.history, past.1 ≠ time) → s' = s) ∧
      (config.sinrSource = .data → ∀ map, (time, map) ∈ s.uplink.history → ∀ r,
        (s'.uplink.quality.sinr.entries[r]? =
            (s.creditSamples (map.heard codes) (codes.map Sinr.decode)).sinr.entries[r]? ↔
          (∀ i, s.Misses map codes r i →
            (s.uplink.quality.known r)[i]? = some Sinr.unmeasured) ∧
          ((∃ i, s.Misses map codes r i) → (∃ i, s.Hears map codes r i) ∨
            s.uplink.quality.sinr.entries[r]?.map (·.remaining) = some config.cqiThreshold)))) ∧
    (config.sinrSource = .data → ∀ time outcomes s' said,
      s.step policy (.uplinkTrigger time outcomes) = .ok (s', said) →
      ∃ d, said = [.uplink d] ∧ ∀ g ∈ d.grants, g.ndi = 1 → Forgotten es g.rnti →
        (Lasts es g.rnti Sinr.unmeasuredCode config.cqiThreshold 1 →
          g.mcs = LinkAdaptation.mcsOfCqi (LinkAdaptation.cqiOfSinr UplinkQuality.unlimited)) ∧
        (¬Lasts es g.rnti Sinr.unmeasuredCode config.cqiThreshold 1 → g.mcs = 0)) := by
  have hconfig := hrun.reachable.invariant.config
  have hconsistent := hrun.reachable.consistent
  constructor
  · intro time codes rnti s' said hstep
    cases SchedulerState.accepted_of_step hstep with
    | sinrIgnored _ hother =>
      refine ⟨fun _ => rfl, fun hsource => absurd ?_ hother⟩
      rw [hconfig, hsource]
    | unattributed _ _ hnone =>
      refine ⟨fun _ => rfl, fun _ map hmap => ?_⟩
      simpa using List.find?_eq_none.1 hnone _ hmap
    | @credited _ _ _ past _ hsource hpast =>
      obtain ⟨hmem, hsize, honly⟩ := SchedulerState.map_of_find? hconsistent hpast
      rw [hconfig] at hsource
      refine ⟨fun hnone => ?_, fun _ map hmap r => ?_⟩
      · rcases hnone with hother | hnone
        · exact absurd hsource hother
        · exact absurd rfl (hnone _ hmem)
      · rw [honly map hmap, ← hrun.reachable.threshold hsource]
        exact SchedulerState.creditSamples_heard_iff hsize hconsistent.uplink.quality codes r
  · intro hsource time outcomes s' said hstep
    obtain ⟨grid, hgrid, hsaid⟩ := SchedulerState.uplinkDecision_of_step hstep
    refine ⟨_, hsaid, fun g hg hnew h => ?_⟩
    refine hrun.mcs_of_forgotten hsource h hgrid outcomes ?_ rfl
    -- The other grants are retransmissions.
    refine (List.mem_append.1 hg).resolve_left fun hretry => ?_
    have hndi := (UplinkTrigger.ndi_retries s grid outcomes g hretry).1
    rw [hnew] at hndi
    cases hndi

/-- A cell that takes reports on data blocks grants all of them to UE 1, which has no report. -/
theorem exists_grant_unreported :
    ∃ (es : List (Event Throughput)) (s s' : SchedulerState Throughput) (d : UplinkDecision)
      (g : UplinkGrant), Run .tdBet { SchedulerConfig.default with sinrSource := .data } es s ∧
      s.step .tdBet (.uplinkTrigger ⟨4⟩ []) = .ok (s', [.uplink d]) ∧
      (∀ e ∈ es, e.reported? = none) ∧
      g ∈ d.grants ∧ g.ndi = 1 ∧ g.rnti = 1 := by
  obtain ⟨es, e, hrun, hstep, hcheck⟩ := Run.of_replay_step .tdBet
    { SchedulerConfig.default with sinrSource := .data }
    [.connect true true, .configureCell 15 15, .configureUe 1 .singleAntenna,
      .uplinkControls [(1, .bufferStatus [40, 0, 0, 0])]]
    (.uplinkTrigger ⟨4⟩ [])
    (fun es e => es.all (·.reported? == none) && e.grants.any fun g => g.ndi == 1 && g.rnti == 1)
    (by decide +kernel)
  obtain ⟨hquiet, hgranted⟩ := Bool.and_eq_true_iff.1 hcheck
  obtain ⟨grid, -, hsaid⟩ := SchedulerState.uplinkDecision_of_step hstep
  rw [Event.grants, hsaid] at hgranted
  obtain ⟨g, hg, hnew, hr⟩ : ∃ g ∈ (UplinkTrigger.decision e.before grid []).grants,
    g.ndi = 1 ∧ g.rnti = 1 := by simpa [Indication.grants] using hgranted
  exact ⟨es, e.before, e.after, _, g, hrun, hsaid ▸ hstep, by simpa using hquiet, hg, hnew, hr⟩

/-- There, a report on these blocks says that none of them was measured. -/
theorem exists_nothingMeasured :
    ∃ (es : List (Event Throughput)) (s s' : SchedulerState Throughput) (said : List Indication),
      Run .tdBet { SchedulerConfig.default with sinrSource := .data } es s ∧
      s.step .tdBet (.sinr ⟨4⟩ .data (List.replicate 15 Sinr.unmeasuredCode) none) =
        .ok (s', said) ∧
      (∀ e ∈ es, e.reported? = none) ∧
      (⟨4⟩, ⟨Array.replicate 15 1⟩) ∈ s.uplink.history ∧
      s.Credits ⟨Array.replicate 15 1⟩ 1 0 ∧
      s.uplink.quality.contains 1 = false ∧ s'.uplink.quality.contains 1 = true ∧
      s'.grid = some ⟨15, 15⟩ ∧ s'.dataConnected = true ∧
      UplinkTrigger.turns s' ⟨15, 15⟩ [] = [1] ∧
      (UplinkTrigger.terms s' ⟨15, 15⟩ []).length = 15 ∧
      (UplinkTrigger.terms s' ⟨15, 15⟩ []).stretch?
        (UplinkTrigger.freshAfter s' ⟨15, 15⟩ [] []).occupancy 1 0 = some (0, 15) := by
  obtain ⟨es, e, hrun, hstep, hcheck⟩ := Run.of_replay_step .tdBet
    { SchedulerConfig.default with sinrSource := .data }
    [.connect true true, .configureCell 15 15, .configureUe 1 .singleAntenna,
      .uplinkControls [(1, .bufferStatus [40, 0, 0, 0])], .uplinkTrigger ⟨4⟩ []]
    (.sinr ⟨4⟩ .data (List.replicate 15 Sinr.unmeasuredCode) none)
    (fun es e => es.all (·.reported? == none) &&
      e.before.uplink.history == [(⟨4⟩, ⟨Array.replicate 15 1⟩)] && e.before.ues.contains 1 &&
      !e.before.uplink.quality.contains 1 && e.after.uplink.quality.contains 1 &&
      e.after.grid == some ⟨15, 15⟩ && e.after.dataConnected &&
      UplinkTrigger.turns e.after ⟨15, 15⟩ [] == [1] &&
      (UplinkTrigger.terms e.after ⟨15, 15⟩ []).length == 15 &&
      (UplinkTrigger.terms e.after ⟨15, 15⟩ []).stretch?
        (UplinkTrigger.freshAfter e.after ⟨15, 15⟩ [] []).occupancy 1 0 == some (0, 15))
    (by decide +kernel)
  simp only [Bool.and_eq_true, beq_iff_eq, Bool.not_eq_true'] at hcheck
  obtain ⟨⟨⟨⟨⟨⟨⟨⟨⟨hquiet, hhistory⟩, hue⟩, hsilent⟩, hreport⟩, hgrid⟩, hdata⟩, hturns⟩, hlength⟩,
    hstretch⟩ := hcheck
  exact ⟨es, e.before, e.after, e.said, hrun, hstep, by simpa using hquiet,
    hhistory ▸ List.mem_singleton_self _, ⟨rfl, by decide, Std.ExtTreeMap.mem_iff_contains.2 hue⟩,
    hsilent, hreport, hgrid, hdata, hturns, hlength, hstretch⟩

/-- A UE of which nothing was measured has a report. A cell that takes reports on data blocks hears
that none of the blocks of the UE was measured, and stores this like a measurement: before it the UE
has no report, and afterwards it has one. -/
theorem missing_sample_reported :
    ¬∀ (s s' : SchedulerState Throughput) (time : Subframe) (codes : List UInt16)
      (rnti : Option Rnti) (said : List Indication) (map : BlockMap) (r : Rnti),
      Reachable .tdBet { SchedulerConfig.default with sinrSource := .data } s →
      s.step .tdBet (.sinr time .data codes rnti) = .ok (s', said) →
      (time, map) ∈ s.uplink.history →
      (∀ i, s.Credits map r i → codes[i]? = some Sinr.unmeasuredCode) →
      s'.uplink.quality.sinr.entries[r]? = s.uplink.quality.sinr.entries[r]? := by
  intro hunchanged
  obtain ⟨es, s, s', said, hrun, hstep, -, hmap, -, hsilent, hreport, -⟩ := exists_nothingMeasured
  have hentry := hunchanged s s' _ _ _ said _ 1 hrun.reachable hstep hmap fun i hi => by
    have hlt := (Array.getElem?_eq_some_iff.1 hi.1).1
    rw [Array.size_replicate] at hlt
    exact List.getElem?_replicate_of_lt hlt
  have hsame : s'.uplink.quality.contains 1 = s.uplink.quality.contains 1 := by
    simp only [UplinkQuality.contains, AgingTable.contains,
      Std.ExtTreeMap.contains_eq_isSome_getElem?, hentry]
  rw [hsilent, hreport] at hsame
  cases hsame

/-- Of a UE of which nothing was ever measured, no measurement is left. -/
theorem forgotten_of_missing
    (h : ∀ e ∈ es, ∀ code, e.Credits r code → code = Sinr.unmeasuredCode) : Forgotten es r :=
  fun _ e _ code hes hcredits hcode =>
    absurd (h e (hes ▸ List.mem_append_right _ List.mem_cons_self) code hcredits) hcode

/-- Before that report, UE 1 is granted the most robust scheme. After it there is a report of the UE
that is there for the missing samples only, and the UE is granted the best scheme: there is such a
grant, provided that the capacity at the largest number exceeds what the highest channel quality
asks for. Logarithms and powers are left to the platform, so this can only be assumed of them. -/
theorem credited_missing_nothingMeasured :
    (∃ (es : List (Event Throughput)) (s s' : SchedulerState Throughput) (d : UplinkDecision),
      Run .tdBet { SchedulerConfig.default with sinrSource := .data } es s ∧
      s.step .tdBet (.uplinkTrigger ⟨4⟩ []) = .ok (s', [.uplink d]) ∧
      ∃ g ∈ d.grants, g.ndi = 1 ∧ g.rnti = 1 ∧ g.mcs = 0) ∧
    ∃ (es : List (Event Throughput)) (s s' s'' : SchedulerState Throughput)
      (said : List Indication) (d : UplinkDecision),
      Run .tdBet { SchedulerConfig.default with sinrSource := .data } es s ∧
      s.step .tdBet (.sinr ⟨4⟩ .data (List.replicate 15 Sinr.unmeasuredCode) none) =
        .ok (s', said) ∧
      s'.uplink.quality.sinr.entries[(1 : Rnti)]? ≠
        (s.creditSamples (.heard ⟨Array.replicate 15 1⟩ (List.replicate 15 Sinr.unmeasuredCode))
          ((List.replicate 15 Sinr.unmeasuredCode).map Sinr.decode)).sinr.entries[(1 : Rnti)]? ∧
      s'.step .tdBet (.uplinkTrigger ⟨5⟩ []) = .ok (s'', [.uplink d]) ∧
      (∀ g ∈ d.grants, g.ndi = 1 → g.rnti = 1 →
        g.mcs = LinkAdaptation.mcsOfCqi (LinkAdaptation.cqiOfSinr UplinkQuality.unlimited)) ∧
      (LinkAdaptation.hundredths 555 <
          LinkAdaptation.efficiencyOfSinr UplinkQuality.unlimited →
        ∃ g ∈ d.grants, g.ndi = 1 ∧ g.rnti = 1 ∧ g.mcs = 28) := by
  constructor
  · obtain ⟨es, s, s', d, g, hrun, hstep, hquiet, hg, hnew, hr⟩ := exists_grant_unreported
    obtain ⟨-, hgrants⟩ := hrun.credited_missing
    obtain ⟨d', hsaid, hgrants⟩ := hgrants rfl _ _ _ _ hstep
    obtain rfl := Indication.uplink.inj (List.singleton_inj.1 hsaid)
    have hnone : ∀ e ∈ es, ∀ code, ¬e.Credits g.rnti code :=
      fun e he => Event.not_credits (hquiet e he) _
    refine ⟨es, s, s', d, hrun, hstep, g, hg, hnew, hr, (hgrants g hg hnew ?_).2 ?_⟩
    · exact forgotten_of_missing fun e he code hcredits => absurd hcredits (hnone e he code)
    · rintro ⟨before, e, since, rfl, hcredits, -⟩
      exact hnone e (List.mem_append_right _ List.mem_cons_self) _ hcredits
  · obtain ⟨es, s, s', said, hrun, hstep, hquiet, hmap, hcredits, hsilent, -, hgrid, hdata, hturns,
      hlength, hstretch⟩ := exists_nothingMeasured
    have htrigger : s'.step .tdBet (.uplinkTrigger ⟨5⟩ []) = .ok _ :=
      SchedulerState.step_of_accepted (.uplink hdata hgrid (List.forall_mem_nil _))
    obtain ⟨hreport, -⟩ := hrun.credited_missing
    obtain ⟨-, hgrants⟩ := (hrun.step hstep).credited_missing
    obtain ⟨d, hsaid, hgrants⟩ := hgrants rfl _ _ _ _ htrigger
    -- The one report that credits the UE says that nothing was measured.
    have hforgotten : Forgotten (es ++ [⟨s, .sinr ⟨4⟩ .data
        (List.replicate 15 Sinr.unmeasuredCode) none, s', said⟩]) 1 := by
      refine forgotten_of_missing fun e he code hcredits => ?_
      rcases List.mem_append.1 he with he | he
      · exact absurd hcredits (Event.not_credits (hquiet e he) _ _)
      · obtain ⟨time, codes, rnti, map, i, hrequest, -, hcode, -⟩ := hcredits
        obtain rfl := List.mem_singleton.1 he
        cases hrequest
        exact List.eq_of_mem_replicate (List.mem_of_getElem? hcode)
    have hbest : ∀ g ∈ d.grants, g.ndi = 1 → g.rnti = 1 →
        g.mcs = LinkAdaptation.mcsOfCqi (LinkAdaptation.cqiOfSinr UplinkQuality.unlimited) := by
      intro g hg hnew hr
      refine (hgrants g hg hnew (hr ▸ hforgotten)).1 ?_
      exact ⟨es, _, [], rfl, ⟨_, _, _, _, 0, rfl, hmap, rfl, hr ▸ hcredits⟩,
        List.forall_mem_nil _, by decide⟩
    refine ⟨es, s, s', _, said, d, hrun, hstep, fun hentry => ?_, hsaid ▸ htrigger, hbest,
      fun hcapacity => ?_⟩
    -- The entry would have to be fresh already, but before the report there was none.
    · obtain ⟨-, hfresh⟩ := ((hreport _ _ _ _ _ hstep).2 rfl _ hmap 1).1 hentry
      rcases hfresh ⟨0, hcredits, rfl⟩ with ⟨i, -, code, hcode, hne⟩ | htimer
      · exact hne (List.eq_of_mem_replicate (List.mem_of_getElem? hcode))
      · have hnone : s.uplink.quality.sinr.entries[(1 : Rnti)]? = none :=
          Table.not_mem_iff.1 fun hmem => by
            rw [Std.ExtTreeMap.mem_iff_contains] at hmem
            cases hsilent.symm.trans hmem
        rw [hnone] at htimer
        cases htimer
    · have hcqi : LinkAdaptation.cqiOfSinr UplinkQuality.unlimited = LinkAdaptation.maxCqi :=
        LinkAdaptation.cqiOfEfficiency_of_lt hcapacity
      have husable : LinkAdaptation.cqiOfSinr UplinkQuality.unlimited ≠ 0 := by
        rw [hcqi]
        decide
      have hlength' : (UplinkTrigger.terms s' ⟨15, 15⟩ []).length ≠ 0 := by
        rw [hlength]
        decide
      -- A UE that is taken to have the best channel can be reached on any stretch.
      have hreachable :=
        (hrun.step hstep).reachable_of_forgotten rfl hforgotten hgrid [] husable []
      obtain ⟨g, hg, hr⟩ :=
        UplinkTrigger.exists_fresh_of_turn s' ⟨15, 15⟩ [] hturns hlength' hstretch hreachable
      have hnew := (UplinkTrigger.permits_fresh s' ⟨15, 15⟩ [] g hg).1
      have hmem : g ∈ d.grants := by
        rw [← Indication.uplink.inj (List.singleton_inj.1 hsaid)]
        exact List.mem_append_right _ hg
      refine ⟨g, hmem, hnew, hr, (hbest g hmem hnew hr).trans ?_⟩
      rw [hcqi]
      decide

end LteMac
