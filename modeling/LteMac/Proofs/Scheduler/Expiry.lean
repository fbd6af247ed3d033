import LteMac.Proofs.Downlink.Conservation
import LteMac.Proofs.Quality.Reports
import LteMac.Proofs.Reuse.Exchange

/-!
# Expired reports

A quality report of a UE is stored twice: in the tables of the downlink, where it ages and expires,
and in the memory of the reuse policy, where it does not. A trigger does not notice an expired
report if the policy is indifferent to what it remembers. Otherwise the report goes on to decide
where the UE is served and how loud it sends.

To say that something has no influence, a cell is compared with one that lacks it: the same cell
with the reports of the UE taken out of the tables, and out of the memory of the reuse policy as
well. The first removal is never noticed, since the tables are refreshed before anything is decided,
and what has expired is not in them then. Whether the second is noticed depends on what the policy
makes of what it remembers, and both cases occur.

* `SchedulerState.step_withoutReports`: the tables forget what has expired;
* `SchedulerState.influence_of_expired`: what is left of an expired report;
* `expired_report_decides`: a UE that is kept at the edge by an expired report.
-/

namespace LteMac

variable {r : Rnti}

/-! ## The tables -/

namespace AgingTable

variable {α : Type} {t : AgingTable α}

/-- There is nothing to erase of a UE without an entry. -/
theorem erase_of_get?_eq_none (h : t.get? r = none) : t.erase r = t := by
  have hnone : t.entries[r]? = none := Option.map_eq_none_iff.1 h
  have hentries : t.entries.erase r = t.entries := by
    refine Std.ExtTreeMap.ext_getElem? fun {r'} => ?_
    rw [Table.getElem?_erase]
    split
    next heq => rw [heq, hnone]
    next => rfl
  rw [erase, hentries]

/-- An entry ages on its own, so it can be erased before or after the refresh. -/
theorem refresh_erase (t : AgingTable α) (r : Rnti) : (t.erase r).refresh = t.refresh.erase r := by
  have hentries : (t.entries.erase r).filterMap (fun _ a => a.tick) =
      (t.entries.filterMap fun _ a => a.tick).erase r := by
    refine Std.ExtTreeMap.ext_getElem? fun {r'} => ?_
    rw [Std.ExtTreeMap.getElem?_filterMap', Table.getElem?_erase, Table.getElem?_erase,
      Std.ExtTreeMap.getElem?_filterMap']
    split <;> rfl
  rw [refresh, erase, hentries]
  rfl

end AgingTable

namespace DownlinkQuality

variable {q : DownlinkQuality}

/-- A UE has no live report. -/
structure Silent (q : DownlinkQuality) (r : Rnti) : Prop where
  /-- It has none for the whole band. -/
  wideband : q.wideband.get? r = none
  /-- It has none by group. -/
  subband : q.subband.get? r = none

instance (q : DownlinkQuality) (r : Rnti) : Decidable (q.Silent r) :=
  decidable_of_iff (q.wideband.get? r = none ∧ q.subband.get? r = none)
    ⟨fun h => ⟨h.1, h.2⟩, fun h => ⟨h.1, h.2⟩⟩

/-- There is nothing to erase of a UE without a live report. -/
theorem erase_of_silent (h : q.Silent r) : q.erase r = q := by
  rw [erase, AgingTable.erase_of_get?_eq_none h.wideband,
    AgingTable.erase_of_get?_eq_none h.subband]

/-- Reports age on their own, so those of a UE can be erased before or after the refresh. -/
theorem refresh_erase (q : DownlinkQuality) (r : Rnti) :
    (q.erase r).refresh = q.refresh.erase r := by
  rw [refresh, erase, AgingTable.refresh_erase, AgingTable.refresh_erase]
  rfl

end DownlinkQuality

/-- A downlink trigger knows the tables after their refresh only. -/
theorem DownlinkTrigger.decide_congr_quality {Record : Type} (policy : Policy Record)
    {s : SchedulerState Record} {q : DownlinkQuality}
    (h : q.refresh = s.downlink.quality.refresh) (grid : Grid) (feedback : List HarqFeedback) :
    decide policy { s with downlink := { s.downlink with quality := q } } grid feedback =
      decide policy s grid feedback := by
  -- The tables age before any stage reads them.
  have hage : age { s.downlink with quality := q } = age s.downlink := by
    simp only [age, h]
  have hopened : opened { s with downlink := { s.downlink with quality := q } } grid =
      opened s grid := by
    simp only [opened, hage]
    rfl
  have hretries : retries { s with downlink := { s.downlink with quality := q } } grid feedback =
      retries s grid feedback := by
    rw [retries, hopened]
    rfl
  have hturns : turns { s with downlink := { s.downlink with quality := q } } grid feedback =
      turns s grid feedback := by
    rw [turns, hopened, hretries]
    rfl
  rw [decide_eq, data, fresh, hopened, hretries, hturns]
  rfl

/-! ## Triggers -/

namespace SchedulerState

variable {Record : Type} {q : Request} {d : Direction}

/-- The downlink reports while a trigger decides: only a downlink trigger refreshes them. -/
def reports (s : SchedulerState Record) : Direction → DownlinkQuality
  | .downlink => s.downlink.quality.refresh
  | .uplink => s.downlink.quality

/-- The cell as if a UE had never reported a downlink quality. -/
def withoutReports (s : SchedulerState Record) (r : Rnti) : SchedulerState Record :=
  { s with
    reuse := s.reuse.forget r
    downlink := { s.downlink with quality := s.downlink.quality.erase r } }

/-- What has expired is not in the tables any more, so that only the reuse policy has something to
forget. -/
theorem step_withoutReports (policy : Policy Record) {s : SchedulerState Record}
    (hq : q.trigger? = some d) (hexpired : (s.reports d).Silent r) :
    (s.withoutReports r).step policy q =
      { s with reuse := s.reuse.forget r }.step policy q := by
  cases q <;> cases hq
  case downlinkTrigger feedback =>
    have hrefresh : (s.downlink.quality.erase r).refresh = s.downlink.quality.refresh := by
      rw [DownlinkQuality.refresh_erase]
      exact DownlinkQuality.erase_of_silent hexpired
    refine bind_congr fun _ => bind_congr fun grid => bind_congr fun _ => congrArg Except.ok ?_
    exact DownlinkTrigger.decide_congr_quality (s := { s with reuse := s.reuse.forget r }) policy
      hrefresh grid feedback
  case uplinkTrigger time outcomes =>
    have herase : s.downlink.quality.erase r = s.downlink.quality :=
      DownlinkQuality.erase_of_silent hexpired
    rw [withoutReports, herase]

/-- What is left of the expired reports of a UE is in the reuse policy: the cell as if the UE had
never reported says what the cell says whose policy has forgotten the UE. The policy answers as if
it had forgotten the UE exactly if it is indifferent to what it remembers, and then that cell says
the same as the present one. -/
theorem influence_of_expired (config : SchedulerConfig) (algorithm : Algorithm)
    {s : SchedulerState algorithm.Record} (hq : q.trigger? = some d)
    (hexpired : (s.reports d).Silent r) :
    (s.withoutReports r).step (algorithm.policy config) q =
      { s with reuse := s.reuse.forget r }.step (algorithm.policy config) q ∧
    (s.reuse.Indifferent d r ↔ s.reuse.Agrees d (s.reuse.forget r)) ∧
    (s.reuse.Indifferent d r →
      { s with reuse := s.reuse.forget r }.step (algorithm.policy config) q =
        (s.step (algorithm.policy config) q).map fun out =>
          ({ out.1 with reuse := s.reuse.forget r }, out.2)) :=
  ⟨step_withoutReports (algorithm.policy config) hq hexpired, ReusePolicy.indifferent_iff,
    fun h => step_congr config hq (ReusePolicy.indifferent_iff.1 h)⟩

end SchedulerState

/-- Quality reports outlive one refresh. -/
def briefReports : SchedulerConfig := { SchedulerConfig.default with cqiThreshold := 1 }

/-- In a cell whose lowest groups are for the edge, a UE reports a quality once, and something waits
for it when the report has expired. -/
def reportedOnce (edge cqi : Nat) : List Request :=
  [.connect true true, .configureCell 6 6, .installReuse (.soft 6 6 ⟨0, edge⟩ ⟨0, 3⟩ 7),
    .configureUe 1 .singleAntenna, .quality [⟨1, 1, .wideband, [cqi], []⟩],
    .downlinkTrigger [], .downlinkTrigger [], .queue 1 0 ⟨400, 0, 0, 0, 0⟩]

/-- An expired report of a good quality has no influence, although the reuse policy remembers it. -/
theorem influence_of_expired_centre :
    ∃ (s s' : SchedulerState Throughput) (said : List Indication),
      Reachable (Algorithm.tdBet.policy briefReports) briefReports s ∧
      s.downlink.quality.refresh.Silent 1 ∧ (s.reuse.memory 1).zone = some .centre ∧
      s.step (Algorithm.tdBet.policy briefReports) (.downlinkTrigger []) = .ok (s', said) ∧
      (s.withoutReports 1).step (Algorithm.tdBet.policy briefReports) (.downlinkTrigger []) =
        .ok ({ s' with reuse := s.reuse.forget 1 }, said) ∧
      (said.flatMap (·.blocks)).map (fun b => (b.rnti, b.rbgs)) = [(1, [5])] := by
  obtain ⟨es, e, hrun, hstep, hcheck⟩ := Run.of_replay_step (Algorithm.tdBet.policy briefReports)
    briefReports (reportedOnce 5 10) (.downlinkTrigger [])
    (fun _ e => decide (e.before.downlink.quality.refresh.Silent 1) &&
      (e.before.reuse.memory 1).zone == some .centre &&
      decide (e.before.reuse.Indifferent .downlink 1) &&
      (e.said.flatMap (·.blocks)).map (fun b => (b.rnti, b.rbgs)) == [(1, [5])])
    (by decide +kernel)
  simp only [Bool.and_eq_true, decide_eq_true_iff, beq_iff_eq] at hcheck
  obtain ⟨⟨⟨hexpired, hzone⟩, hindifferent⟩, hblocks⟩ := hcheck
  obtain ⟨hsame, -, hforgotten⟩ := SchedulerState.influence_of_expired briefReports .tdBet
    (q := .downlinkTrigger []) (d := .downlink) rfl hexpired
  have hwithout := (hsame.trans (hforgotten hindifferent)).trans (congrArg (Except.map _) hstep)
  exact ⟨e.before, e.after, e.said, hrun.reachable, hexpired, hzone, hstep, hwithout, hblocks⟩

/-- An expired report of a bad quality keeps a UE on the groups of the edge, which it would not be
allowed otherwise, and has it sent louder. The report is in none of the tables any more when this is
decided. If the reuse policy had forgotten it as well, the UE would have got none of these groups.
-/
theorem expired_report_decides :
    ∃ (s s' t' : SchedulerState Throughput) (d d' : DownlinkDecision),
      Reachable (Algorithm.tdBet.policy briefReports) briefReports s ∧
      s.downlink.quality.refresh.Silent 1 ∧
      s.step (Algorithm.tdBet.policy briefReports) (.downlinkTrigger []) =
        .ok (s', [.downlink d]) ∧
      { s with reuse := s.reuse.forget 1 }.step (Algorithm.tdBet.policy briefReports)
        (.downlinkTrigger []) = .ok (t', [.downlink d']) ∧
      (∃ b ∈ d.data, b.rnti = 1 ∧ b.rbgs = [0] ∧ b.grant.tpc = tpcBoost) ∧
      ∀ b ∈ d'.data, b.rnti = 1 → 0 ∉ b.rbgs := by
  obtain ⟨es, e, hrun, hstep, hcheck⟩ := Run.of_replay_step (Algorithm.tdBet.policy briefReports)
    briefReports (reportedOnce 1 3) (.downlinkTrigger [])
    (fun _ e => decide (e.before.downlink.quality.refresh.Silent 1) &&
      ({ e.before with reuse := e.before.reuse.forget 1 }.step
        (Algorithm.tdBet.policy briefReports) (.downlinkTrigger [])).toOption.isSome &&
      !(e.before.reuse.forget 1).downlinkAllowed 0 1 &&
      (e.said.flatMap (·.blocks)).map (fun b => (b.rnti, b.rbgs, b.grant.tpc)) ==
        [(1, [0], tpcBoost)])
    (by decide +kernel)
  simp only [Bool.and_eq_true, Bool.not_eq_true', decide_eq_true_iff, beq_iff_eq] at hcheck
  obtain ⟨⟨⟨hexpired, haccepted⟩, hcentre⟩, hblocks⟩ := hcheck
  -- The other cell is known by its step only, which was seen to be accepted.
  cases hstep' : { e.before with reuse := e.before.reuse.forget 1 }.step
      (Algorithm.tdBet.policy briefReports) (.downlinkTrigger []) with
  | error cause =>
    rw [hstep'] at haccepted
    cases haccepted
  | ok out =>
    obtain ⟨t', said'⟩ := out
    obtain ⟨grid, -, hsaid⟩ := SchedulerState.decision_of_step hstep
    obtain ⟨grid', hgrid', rfl⟩ := SchedulerState.decision_of_step hstep'
    rw [hsaid] at hstep hblocks
    refine ⟨e.before, e.after, t', _, _, hrun.reachable, hexpired, hstep, hstep', ?_, ?_⟩
    · have hmem := List.mem_singleton_self ((1, [0], tpcBoost) : Rnti × List Nat × Nat)
      rw [← hblocks] at hmem
      obtain ⟨b, hb, heq⟩ := List.mem_map.1 hmem
      obtain ⟨hr, hrest⟩ := Prod.mk.inj heq
      obtain ⟨hrbgs, htpc⟩ := Prod.mk.inj hrest
      exact ⟨b, by simpa [Indication.blocks] using hb, hr, hrbgs, htpc⟩
    · -- The group that the UE was given is no group of the centre.
      have hinv := hrun.reachable.invariant
      have hseparate := DownlinkTrigger.separate_decision (Algorithm.tdBet.policy briefReports) []
        (s := { e.before with reuse := e.before.reuse.forget 1 }) hinv.sound
        (hinv.rbgCount_le hgrid')
      intro b hb hr hmem
      have hallowed := hseparate.allowed b hb 0 hmem
      rw [hr] at hallowed
      exact Bool.noConfusion (hcentre.symm.trans hallowed)

end LteMac
