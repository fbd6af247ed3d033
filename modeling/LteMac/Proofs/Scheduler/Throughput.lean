import LteMac.Policy.Choice
import LteMac.Proofs.Downlink.Lineage
import LteMac.Proofs.Downlink.Resending
import LteMac.Proofs.Scheduler.Entries
import LteMac.Proofs.Scheduler.Rotation
import LteMac.Proofs.Uplink.Permission
import LteMac.Proofs.Uplink.Present

/-!
# The throughput of a UE

The policies rank the UEs by what they were sent, so a record that misses a trigger, or counts one
twice, or takes a block that is sent again for a new one, ranks its UE wrongly ever after. None of
this happens: in each direction every trigger since the UE was configured is recorded once, with the
bytes of the new data that the UE was given in it, which may be none.

The samples are read off the decisions that were made, not off what the scheduler passes to its
records (`Event.sample?`). In the downlink these are the sizes of the new blocks of a UE; blocks
that are sent again are told apart by their marks. That both are the same has to do with how often a
UE is served: a trigger sums up what it sent to a UE by looking for *one* block, and there is never
a second one.

A record is then computed from the samples by a fold (`Throughput.averageOf`), in which the oldest
sample comes first and the average begins at 1 byte per second. The order of the folding matters,
since the averages are floating point numbers, and it is the order of the triggers.

* `Event.sample?`: what an event adds to the record of a UE in a direction;
* `Algorithm.Accounts`: a record that is computed from such samples;
* `Run.throughput_accounted`: in a run, the records of every UE are computed from the triggers since
  the UE was configured.
-/

namespace LteMac

variable {Record : Type} {r : Rnti}

/-! ## Samples -/

/-- The bytes of new data for a UE in an event, if the event is a trigger of the direction. -/
def Event.sample? (e : Event Record) (d : Direction) (r : Rnti) : Option Nat :=
  match d, e.request with
  | .downlink, .downlinkTrigger _ =>
    some <| sumBy (fun b => sumBy id b.grant.tbs) (e.blocks.filter fun b => b.rnti = r && b.isNew)
  | .uplink, .uplinkTrigger .. =>
    some <| sumBy (·.tbs) (e.grants.filter fun g => g.rnti = r && g.ndi = 1)
  | _, _ => none

/-- The samples of a UE in the triggers of a direction. -/
def samples (es : List (Event Record)) (d : Direction) (r : Rnti) : List Nat :=
  es.filterMap (·.sample? d r)

/-- One more event has one more sample at most. -/
theorem samples_concat (es : List (Event Record)) (e : Event Record) (d : Direction) (r : Rnti) :
    samples (es ++ [e]) d r = samples es d r ++ (e.sample? d r).toList := by
  rw [samples, List.filterMap_append, List.filterMap_cons, List.filterMap_nil, samples]
  cases e.sample? d r <;> rfl

/-! ## Records -/

namespace Throughput

/-- The average over some samples, the oldest first. -/
def averageOf (window : Float) (samples : List Nat) : Float :=
  samples.foldl (fun average bytes => ewma average (Float.ofNat bytes / subframeSeconds) window) 1.0

/-- The record of a UE that was configured at `start` and had the samples since. -/
structure Accounts (t : Throughput) (window : Float) (start : Nat) (samples : List Nat) :
    Prop where
  /-- It was configured then. -/
  start : t.start = start
  /-- The total is the sum of the samples. -/
  total : t.total = sumBy id samples
  /-- The latest sample is the last one. -/
  latest : t.latest = samples.getLast?.getD 0
  /-- The average takes in the samples one after the other. -/
  average : t.average = averageOf window samples

variable {t : Throughput} {window : Float} {start bytes : Nat} {samples : List Nat}

/-- The latest sample is folded in last. -/
theorem averageOf_concat (window : Float) (samples : List Nat) (bytes : Nat) :
    averageOf window (samples ++ [bytes]) =
      ewma (averageOf window samples) (Float.ofNat bytes / subframeSeconds) window := by
  rw [averageOf, List.foldl_append]
  rfl

/-- Over a window of four subframes the first sample, 4000 bytes a second, raises the average from 1
to 1000.75, and the second one leaves three quarters of that. -/
example : averageOf 4.0 [4, 0] = 750.5625 := by decide +kernel

/-- A fresh record is computed from no samples. -/
theorem accounts_fresh (window : Float) (start : Nat) : (fresh start).Accounts window start [] :=
  ⟨rfl, rfl, rfl, rfl⟩

/-- To record a trigger is to add its sample. -/
theorem Accounts.record (h : t.Accounts window start samples) (bytes : Nat) :
    (t.record bytes window).Accounts window start (samples ++ [bytes]) where
  start := h.start
  total := by
    rw [sumBy_append, Throughput.record, h.total]
    rfl
  latest := by rw [List.getLast?_concat]; rfl
  average := by
    rw [averageOf_concat, ← h.average]
    rfl

end Throughput

/-- The record that goes with it under a policy that also looks at the delay: the averages before
the last sample, and before the one before it. -/
structure QosRecord.Accounts (record : QosRecord) (window : Float) (start : Nat)
    (samples : List Nat) : Prop where
  /-- Its throughput accounts for all samples. -/
  throughput : record.throughput.Accounts window start samples
  /-- One average lags behind by a sample. -/
  lastAverage : record.lastAverage = Throughput.averageOf window samples.dropLast
  /-- The other one lags behind by two. -/
  secondLastAverage :
    record.secondLastAverage = Throughput.averageOf window samples.dropLast.dropLast

/-- The record of an algorithm for a UE that was configured at `start` and had the samples since. -/
def Algorithm.Accounts (window : Float) (start : Nat) (samples : List Nat) :
    (algorithm : Algorithm) → algorithm.Record → Prop
  | .cqa, record => QosRecord.Accounts record window start samples
  | .fdBet, record | .tdBet, record => Throughput.Accounts record window start samples
  | .tta, _ => True

namespace Algorithm

variable {config : SchedulerConfig} {algorithm : Algorithm} {record : algorithm.Record}
  {window : Float} {start : Nat} {samples : List Nat}

/-- Whatever the algorithm, a fresh record is computed from no samples. -/
theorem accounts_fresh (config : SchedulerConfig) (algorithm : Algorithm) (window : Float)
    (start : Nat) :
    algorithm.Accounts window start [] ((algorithm.policy config).fresh start) := by
  cases algorithm with
  | cqa => exact ⟨Throughput.accounts_fresh window start, rfl, rfl⟩
  | fdBet | tdBet => exact Throughput.accounts_fresh window start
  | tta => trivial

/-- Bearers change nothing that is computed from samples. -/
theorem accounts_setBearers (h : algorithm.Accounts window start samples record)
    (bearers : List Bearer) : algorithm.Accounts window start samples
      ((algorithm.policy config).setBearers bearers record) := by
  cases algorithm with
  | cqa => exact ⟨h.throughput, h.lastAverage, h.secondLastAverage⟩
  | fdBet | tdBet => exact h
  | tta => trivial

/-- Whatever the algorithm, to record a trigger is to add its sample. -/
theorem accounts_record (h : algorithm.Accounts window start samples record) (bytes : Nat) :
    algorithm.Accounts window start (samples ++ [bytes])
      ((algorithm.policy config).record bytes window record) := by
  cases algorithm with
  | cqa =>
    refine ⟨h.throughput.record bytes, ?_, ?_⟩
    · rw [List.dropLast_concat]
      exact h.throughput.average
    · rw [List.dropLast_concat]
      exact h.lastAverage
  | fdBet | tdBet => exact Throughput.Accounts.record h bytes
  | tta => trivial

end Algorithm

/-! ## What a trigger records -/

/-- What has an image has the same image on the other side. -/
theorem exists_of_map_eq {α β γ : Type} {f : α → γ} {g : β → γ} {a : Option α} {b : Option β}
    {x : α} (h : a.map f = b.map g) (hx : a = some x) : ∃ y, b = some y ∧ f x = g y := by
  rw [hx, Option.map_some, eq_comm, Option.map_eq_some_iff] at h
  exact h.imp fun _ hy => ⟨hy.1, hy.2.symm⟩

/-- Where a key occurs once at most, the sum over the entries of a key is over one entry. -/
theorem sumBy_filter_of_nodup {α κ : Type} [DecidableEq κ] {key : α → κ} {f : α → Nat}
    {xs : List α} (h : (xs.map key).Nodup) (k : κ) :
    sumBy f (xs.filter (key · = k)) = (xs.find? (key · == k)).elim 0 f := by
  induction xs with
  | nil => rfl
  | cons x xs ih =>
    obtain ⟨hx, hxs⟩ := List.nodup_cons.1 h
    by_cases hk : key x = k
    · have hnone : xs.filter (key · = k) = [] := by
        refine List.filter_eq_nil_iff.2 fun y hy heq => hx ?_
        rw [hk, ← of_decide_eq_true heq]
        exact List.mem_map_of_mem hy
      rw [List.filter_cons_of_pos (by simpa using hk), hnone,
        List.find?_cons_of_pos (by simpa using hk)]
      rfl
    · rw [List.filter_cons_of_neg (by simpa using hk), List.find?_cons_of_neg (by simpa using hk),
        ih hxs]

/-- Of a first list, none of which is new, and a second one, which is new and has each key once at
most, the new entries of a key are an entry of the second. -/
theorem sumBy_new {α κ : Type} [DecidableEq κ] {key : α → κ} {new : α → Bool} {f : α → Nat}
    {again fresh : List α} (hagain : ∀ x ∈ again, new x = false) (hnew : ∀ x ∈ fresh, new x = true)
    (h : (fresh.map key).Nodup) (k : κ) :
    sumBy f ((again ++ fresh).filter fun x => key x = k && new x) =
      (fresh.find? (key · == k)).elim 0 f := by
  have hnone : again.filter (fun x => key x = k && new x) = [] :=
    List.filter_eq_nil_iff.2 fun x hx => by simp [hagain x hx]
  have hall : fresh.filter (fun x => key x = k && new x) = fresh.filter (key · = k) :=
    List.filter_congr fun x hx => by rw [hnew x hx, Bool.and_true]
  rw [List.filter_append, hnone, hall, List.nil_append, sumBy_filter_of_nodup h]

/-- To serve a candidate leaves the records alone. -/
theorem NewData.Setting.record_serve (setting : Setting) (proposal : Allocation)
    (round : Round Record) (c r : Rnti) :
    (setting.serve proposal round c).ues[r]?.map (·.record) = round.ues[r]?.map (·.record) := by
  obtain heq | ⟨u, _, _, -, hu, -, heq⟩ := setting.skips_or_carries proposal round c
  · rw [heq]
  · rw [heq, carry, Table.getElem?_insert]
    split
    next hr => rw [hr, hu]; rfl
    next => rfl

namespace DownlinkTrigger

variable {policy : Policy Record} {s : SchedulerState Record} {grid : Grid}
  {feedback : List HarqFeedback}

/-- The sample of a downlink trigger is what the trigger counts: the blocks that the first pass sent
again are not new, and the second pass sent a UE at most one. -/
theorem sample?_event (policy : Policy Record) (feedback : List HarqFeedback) (r : Rnti)
    (hsound : s.downlink.harq.Sound) (hgrid : grid.rbgCount ≤ 32) :
    (event policy s grid feedback).sample? .downlink r =
      some (bytesOf (fresh policy s grid feedback).sent r) := by
  have hfair := fair_fresh policy s grid feedback hsound hgrid
  have hagain : ∀ b ∈ (retries s grid feedback).sent, b.isNew = false :=
    fun b hb => (flight_of_retry feedback hsound hgrid hb).1
  change some (sumBy _ ((event policy s grid feedback).blocks.filter _)) = _
  rw [blocks_event, data,
    sumBy_new hagain (fun b hb => (hfair.first b hb).isNew) hfair.handout.nodup]
  rfl

/-- The passes of a trigger leave the records alone. -/
theorem record_fresh (policy : Policy Record) (s : SchedulerState Record) (grid : Grid)
    (feedback : List HarqFeedback) (r : Rnti) :
    (fresh policy s grid feedback).ues[r]?.map (·.record) =
      s.downlink.ues[r]?.map (·.record) := by
  obtain ⟨cs, -, -, proposal, heq⟩ := fresh_eq policy s grid feedback
  rw [heq]
  clear heq
  induction cs using List.reverseRecOn with
  | nil => rfl
  | append_singleton cs c ih =>
    rw [List.foldl_append, List.foldl_cons, List.foldl_nil]
    exact (NewData.Setting.record_serve _ proposal _ c r).trans ih

/-- A downlink trigger records its bytes. -/
theorem record_decide (policy : Policy Record) (s : SchedulerState Record) (grid : Grid)
    (feedback : List HarqFeedback) (r : Rnti) :
    (decide policy s grid feedback).1.downlink.ues[r]?.map (·.record) =
      s.downlink.ues[r]?.map fun u => policy.record
        (bytesOf (fresh policy s grid feedback).sent r) s.config.timeWindow u.record := by
  have hrecorded : (decide policy s grid feedback).1.downlink.ues[r]? =
      (fresh policy s grid feedback).ues[r]?.map _ := Std.ExtTreeMap.getElem?_map
  have hrecord := congrArg (Option.map (policy.record
    (bytesOf (fresh policy s grid feedback).sent r) s.config.timeWindow))
    (record_fresh policy s grid feedback r)
  rw [hrecorded, Option.map_map]
  rw [Option.map_map, Option.map_map] at hrecord
  exact hrecord

end DownlinkTrigger

/-- To serve a candidate leaves the throughput alone. -/
theorem UplinkNew.throughput_serve (setting : Setting) (round : Round) (c r : Rnti) :
    (setting.serve round c).ues[r]?.map (·.throughput) =
      round.ues[r]?.map (·.throughput) := by
  obtain ⟨hues, -⟩ | ⟨g, -, -, -, hues, -⟩ := serve_eq setting round c
  · rw [hues]
  · rw [hues, Table.getElem?_modify]
    split
    next hr => rw [hr, Option.map_map]; rfl
    next => rfl

/-- So does the whole pass. -/
theorem UplinkNew.throughput_serveAll (setting : Setting) (round : Round) (cs : List Rnti)
    (r : Rnti) :
    (setting.serveAll round cs).ues[r]?.map (·.throughput) =
      round.ues[r]?.map (·.throughput) := by
  unfold Setting.serveAll
  split
  · rfl
  · induction cs using List.reverseRecOn with
    | nil => rfl
    | append_singleton cs c ih =>
      rw [List.foldl_append]
      exact (throughput_serve setting _ c r).trans ih

namespace UplinkTrigger

variable (s : SchedulerState Record) (grid : Grid) (time : Subframe)
  (outcomes : List UplinkOutcome)

/-- The sample of an uplink trigger is what the trigger counts. -/
theorem sample?_event (hsound : UplinkTable.Sound s.uplink.ues) :
    (event s grid time outcomes).sample? .uplink r =
      some (bytesOf (fresh s grid outcomes).sent r) := by
  have hagain : ∀ g ∈ (retries s grid outcomes).sent, (g.ndi = 1 : Bool) = false :=
    fun g hg => decide_eq_false (by simp [(ndi_retries s grid outcomes g hg).1])
  have hnew : ∀ g ∈ (fresh s grid outcomes).sent, (g.ndi = 1 : Bool) = true :=
    fun g hg => decide_eq_true (permits_fresh s grid outcomes g hg).1
  change some (sumBy _ ((event s grid time outcomes).grants.filter _)) = _
  rw [grants_event,
    sumBy_new hagain hnew (fair_fresh s grid outcomes hsound).handout.nodup]
  rfl

/-- The passes of a trigger leave the throughput alone. -/
theorem throughput_fresh (r : Rnti) :
    (fresh s grid outcomes).ues[r]?.map (·.throughput) =
      s.uplink.ues[r]?.map (·.throughput) := by
  have hretries : (retries s grid outcomes).ues[r]?.map (·.throughput) =
      s.uplink.ues[r]?.map (·.throughput) := by
    refine part_retries s grid outcomes (fun _ _ _ => rfl) (fun _ u => ?_) r
    unfold noteRequest
    split <;> rfl
  unfold fresh sendNew
  split
  · exact hretries
  · exact (UplinkNew.throughput_serveAll ..).trans hretries

/-- An uplink trigger records its bytes. -/
theorem throughput_decide (r : Rnti) :
    (decide s grid time outcomes).1.uplink.ues[r]?.map (·.throughput) =
      s.uplink.ues[r]?.map fun u => u.throughput.record
        (bytesOf (fresh s grid outcomes).sent r) s.config.timeWindow := by
  have hthroughput := congrArg (Option.map fun t : Throughput => t.record
    (bytesOf (fresh s grid outcomes).sent r) s.config.timeWindow)
    (throughput_fresh s grid outcomes r)
  rw [ues_decide, Std.ExtTreeMap.getElem?_map, Option.map_map]
  rw [Option.map_map, Option.map_map] at hthroughput
  exact hthroughput

end UplinkTrigger

/-! ## Runs -/

/-- Of the events that configure a UE `e` is the last one, and `since` comes after it. A UE that is
released and configured again begins a new account. -/
structure LastConfigured (es : List (Event Record)) (r : Rnti) (e : Event Record)
    (since : List (Event Record)) : Prop where
  /-- It is an event of the run, and the others come behind it. -/
  eq_append : ∃ before, es = before ++ e :: since
  /-- It configures the UE. -/
  configures : e.configures r = true
  /-- None of the others does. -/
  since : ∀ x ∈ since, x.configures r = false

namespace LastConfigured

variable {es since : List (Event Record)} {e x : Event Record}

/-- An event that configures a UE is the last one so far. -/
theorem last (es : List (Event Record)) (he : e.configures r = true) :
    LastConfigured (es ++ [e]) r e [] :=
  ⟨⟨es, rfl⟩, he, by simp⟩

/-- It stays the last one, if the next event does not configure the UE. -/
theorem concat (h : LastConfigured es r e since) (hx : x.configures r = false) :
    LastConfigured (es ++ [x]) r e (since ++ [x]) where
  eq_append := by
    obtain ⟨before, heq⟩ := h.eq_append
    exact ⟨before, by rw [heq, List.append_assoc, List.cons_append]⟩
  configures := h.configures
  since := List.forall_mem_append.2 ⟨h.since, List.forall_mem_singleton.2 hx⟩

end LastConfigured

/-- The records of a UE in both directions begin with the event that configured it last, and have
one sample for every trigger of their direction since. -/
def Algorithm.Recorded (algorithm : Algorithm) (window : Float)
    (es : List (Event algorithm.Record)) (r : Rnti) (record : algorithm.Record) (t : Throughput) :
    Prop :=
  ∃ e since, LastConfigured es r e since ∧
    algorithm.Accounts window e.before.downlink.tti (samples since .downlink r) record ∧
    t.Accounts window e.before.downlink.tti (samples since .uplink r)

section Recorded

variable {algorithm : Algorithm} {config : SchedulerConfig} {window : Float}
  {es : List (Event algorithm.Record)} {s s' : SchedulerState algorithm.Record} {q : Request}
  {said : List Indication} {e : Event algorithm.Record} {record record' : algorithm.Record}
  {t t' : Throughput}

/-- One more event, which adds its samples to the records. -/
theorem Algorithm.Recorded.concat (h : algorithm.Recorded window es r record t)
    (he : e.configures r = false)
    (hrecord : ∀ start samples, algorithm.Accounts window start samples record →
      algorithm.Accounts window start (samples ++ (e.sample? .downlink r).toList) record')
    (hthroughput : ∀ start samples, t.Accounts window start samples →
      t'.Accounts window start (samples ++ (e.sample? .uplink r).toList)) :
    algorithm.Recorded window (es ++ [e]) r record' t' := by
  obtain ⟨e₀, since, hlast, hdownlink, huplink⟩ := h
  refine ⟨e₀, since ++ [e], hlast.concat he, ?_, ?_⟩
  · rw [samples_concat]
    exact hrecord _ _ hdownlink
  · rw [samples_concat]
    exact hthroughput _ _ huplink

/-- The records of all UEs. -/
def Algorithm.RecordsAll (algorithm : Algorithm) (window : Float)
    (es : List (Event algorithm.Record)) (s : SchedulerState algorithm.Record) : Prop :=
  ∀ (r : Rnti) (u : DownlinkUe algorithm.Record) (v : UplinkUe), s.downlink.ues[r]? = some u →
    s.uplink.ues[r]? = some v → algorithm.Recorded window es r u.record v.throughput

/-- A request adds to the records what its event has of samples. -/
theorem Algorithm.RecordsAll.of_step (h : algorithm.RecordsAll config.timeWindow es s)
    (hinv : s.Invariant config) (hsound : UplinkTable.Sound s.uplink.ues)
    (hstep : s.step (algorithm.policy config) q = .ok (s', said)) :
    algorithm.RecordsAll config.timeWindow (es ++ [⟨s, q, s', said⟩]) s' := by
  intro r u' v' hu' hv'
  cases SchedulerState.entries_of_step hstep r with
  | added hdownlink huplink =>
    obtain rfl := Option.some.inj (hdownlink.symm.trans hu')
    obtain rfl := Option.some.inj (huplink.symm.trans hv')
    exact ⟨_, [], .last es (decide_eq_true rfl), accounts_fresh config algorithm _ _,
      Throughput.accounts_fresh _ _⟩
  | removed hdownlink => cases hdownlink.symm.trans hu'
  | asked hdownlink huplink =>
    obtain ⟨u, hu, rfl⟩ := Option.map_eq_some_iff.1 (hdownlink.symm.trans hu')
    rw [huplink] at hv'
    refine (h r u v' hu hv').concat rfl (fun _ _ h => ?_) fun _ _ h => ?_
    · simpa [Event.sample?] using h
    · simpa [Event.sample?] using h
  | @downlink feedback grid hgrid =>
    obtain ⟨u, hu, hrecord⟩ := exists_of_map_eq
      (DownlinkTrigger.record_decide (algorithm.policy config) s grid feedback r) hu'
    obtain ⟨v, hv, hthroughput⟩ :=
      exists_of_map_eq (SchedulerState.throughput_answerAll s grid r) hv'
    have hsample := DownlinkTrigger.sample?_event (algorithm.policy config) feedback r hinv.sound
      (hinv.rbgCount_le hgrid)
    refine (h r u v hu hv).concat rfl (fun _ _ h => ?_) fun _ _ h => ?_
    · rw [DownlinkTrigger.event] at hsample
      rw [hsample, hrecord, hinv.config]
      exact accounts_record h _
    · rw [hthroughput]
      simpa [Event.sample?] using h
  | @uplink time outcomes grid hgrid =>
    obtain ⟨v, hv, hthroughput⟩ :=
      exists_of_map_eq (UplinkTrigger.throughput_decide s grid time outcomes r) hv'
    have hsample := UplinkTrigger.sample?_event s grid time outcomes (r := r) hsound
    refine (h r u' v hu' hv).concat rfl (fun _ _ h => ?_) fun _ _ h => ?_
    · simpa [Event.sample?] using h
    · rw [UplinkTrigger.event] at hsample
      rw [hsample, hthroughput, hinv.config]
      exact h.record _
  | kept hq hsaid hdownlink hf huplink =>
    obtain ⟨u, hu, rfl⟩ := Option.map_eq_some_iff.1 (hdownlink.symm.trans hu')
    obtain ⟨v, hv, hthroughput⟩ := exists_of_map_eq huplink hv'
    -- No trigger is among these requests, so neither record has a sample to take.
    have hsample : ∀ d, Event.sample? ⟨s, q, s', said⟩ d r = none := by
      intro d
      cases d <;> cases q <;> simp_all [Event.sample?, Request.regards]
    refine (h r u v hu hv).concat (Event.configures_of_regards hq) (fun _ _ h => ?_) fun _ _ h => ?_
    · rw [hsample, Option.toList_none, List.append_nil]
      obtain heq | ⟨bearers, heq⟩ := (hf u).record
      · rwa [heq]
      · rw [heq]
        exact accounts_setBearers h bearers
    · rw [hsample, Option.toList_none, List.append_nil, hthroughput]
      exact h

end Recorded

variable {algorithm : Algorithm} {config : SchedulerConfig} {es : List (Event algorithm.Record)}
  {s : SchedulerState algorithm.Record}

/-- The records of all UEs are accounted for, over a whole run. -/
theorem Run.recordsAll (h : Run (algorithm.policy config) config es s) :
    algorithm.RecordsAll config.timeWindow es s := by
  refine h.invariant (P := algorithm.RecordsAll config.timeWindow) ?_ fun hrun hrecords hstep =>
    hrecords.of_step hrun.reachable.invariant hrun.sound hstep
  intro r u _ hu
  simp [SchedulerState.initial] at hu

/-- In a run, every configured UE has a record in each direction, and it is computed from the bytes
of new data in the triggers of that direction since the UE was configured. The accounts begin with
the tick in which that happened, and cover total, latest sample and average; under the policy with
delay groups also the two averages before. -/
theorem Run.throughput_accounted (h : Run (algorithm.policy config) config es s) (hr : r ∈ s.ues) :
    ∃ u v, s.downlink.ues[r]? = some u ∧ s.uplink.ues[r]? = some v ∧
      algorithm.Recorded config.timeWindow es r u.record v.throughput := by
  have hconsistent := h.reachable.consistent
  obtain ⟨u, hu⟩ := Table.exists_of_mem ((hconsistent.downlink.records.keys r).2 hr)
  obtain ⟨v, hv⟩ := Table.exists_of_mem ((hconsistent.uplink.records r).2 hr)
  exact ⟨u, v, hu, hv, h.recordsAll r u v hu hv⟩

/-- A UE is configured after a downlink trigger. It is sent a block, which fails and is sent again,
and then it may send something itself. -/
def oneBlockTwice : List Request :=
  [.connect true true, .configureCell 6 6, .installReuse (.hard 6 6 ⟨0, 1⟩ ⟨0, 6⟩),
    .downlinkTrigger [], .configureUe 1 .singleAntenna, .quality [⟨1, 1, .wideband, [9], []⟩],
    .queue 1 0 ⟨20, 0, 0, 0, 0⟩, .downlinkTrigger [], .downlinkTrigger [⟨1, 1, [.nack]⟩],
    .uplinkControls [(1, .bufferStatus [1, 0, 0, 0])]]

/-- The block counts once, in the trigger in which it was new: its 39 bytes, 39000 a second, are one
part in the 99 of the window. In the trigger in which it is sent again the average falls off by one
part in 99, and the average before that becomes the last one. -/
theorem throughput_accounted_oneBlockTwice :
    ∃ (es : List (Event QosRecord)) (s : SchedulerState QosRecord) (u : DownlinkUe QosRecord)
      (v : UplinkUe), Run (Algorithm.cqa.policy .default) .default es s ∧
      s.downlink.ues[(1 : Rnti)]? = some u ∧ s.uplink.ues[(1 : Rnti)]? = some v ∧
      Algorithm.cqa.Recorded SchedulerConfig.default.timeWindow es 1 u.record v.throughput ∧
      es.flatMap (fun e => e.blocks.map fun b => (b.isNew, b.grant.tbs)) =
        [(true, [39]), (false, [39])] ∧
      u.record.throughput.start = 1 ∧ u.record.throughput.total = 39 ∧
      u.record.throughput.latest = 0 ∧ v.throughput.start = 1 ∧ v.throughput.total = 16 ∧
      v.throughput.latest = 16 ∧
      u.record.throughput.average = 390.94010815222947 ∧
      u.record.lastAverage = 394.929292929293 ∧ u.record.secondLastAverage = 1.0 ∧
      v.throughput.average = 162.60606060606062 := by
  obtain ⟨es, e, hrun, hstep, hcheck⟩ := Run.of_replay_step (Algorithm.cqa.policy .default)
    .default oneBlockTwice (.uplinkTrigger ⟨0⟩ [])
    (fun es e => e.after.ues.contains 1 &&
      (es ++ [e]).flatMap (fun e => e.blocks.map fun b => (b.isNew, b.grant.tbs)) ==
        [(true, [39]), (false, [39])] &&
      e.after.downlink.ues[(1 : Rnti)]?.any (fun (u : DownlinkUe Algorithm.cqa.Record) =>
        let record : QosRecord := u.record
        record.throughput.start == 1 && record.throughput.total == 39 &&
          record.throughput.latest == 0 &&
          decide (record.throughput.average = 390.94010815222947 ∧
            record.lastAverage = 394.929292929293 ∧ record.secondLastAverage = 1.0)) &&
      e.after.uplink.ues[(1 : Rnti)]?.any fun (v : UplinkUe) =>
        v.throughput.start == 1 && v.throughput.total == 16 && v.throughput.latest == 16 &&
          decide (v.throughput.average = 162.60606060606062))
    (by decide +kernel)
  have hrun := hrun.step hstep
  simp only [Bool.and_eq_true, beq_iff_eq, Option.any_eq_true, decide_eq_true_iff] at hcheck
  obtain ⟨⟨⟨hknown, hblocks⟩, u, hu, ⟨⟨hstart, htotal⟩, hlatest⟩, haverages⟩,
    v, hv, ⟨⟨hstart', htotal'⟩, hlatest'⟩, haverage'⟩ := hcheck
  obtain ⟨u₀, v₀, hu₀, hv₀, hrecorded⟩ :=
    hrun.throughput_accounted (Std.ExtTreeMap.mem_iff_contains.2 hknown)
  obtain rfl := Option.some.inj (hu₀.symm.trans hu)
  obtain rfl := Option.some.inj (hv₀.symm.trans hv)
  refine ⟨_, e.after, u₀, v₀, hrun, hu, hv, hrecorded, ?_, hstart, htotal, hlatest, hstart',
    htotal', hlatest', haverages.1, haverages.2.1, haverages.2.2, haverage'⟩
  rw [List.flatMap_append] at hblocks
  exact List.flatMap_append.trans hblocks

end LteMac
