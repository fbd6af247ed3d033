import LteMac.Proofs.Uplink.History
import Mathlib.Data.List.Nodup

/-!
# Reports on data blocks

A report on the data blocks of a past subframe names no UE: its samples are credited to the UEs that
could send on the blocks, as the map of the subframe has it. The report uses the map up, and without
a map it is ignored.

There are two halves to this. The first is about one report: it is a fold over its samples, and what
holds after the first samples (`Credited`) says for each UE and each block whether the measurement
is the new one or the old one, and for each UE whether its report was made fresh. The second is
about the run: which maps are still kept when the report comes in, and that they say who was granted
or answered with the blocks back then. Together they leave no room for a sample on the account of a
UE that did not send, or for one that is credited twice.

* `UplinkQuality.known`: what is known of the blocks of a UE;
* `SchedulerState.credited_creditSamples`: a report changes what is known exactly where a sample is
  credited;
* `Run.attributed`: along a run, the right samples are credited to the right UEs, once.
-/

namespace LteMac

variable {Record : Type} {policy : Policy Record} {config : SchedulerConfig}
  {es : List (Event Record)} {s s' : SchedulerState Record} {said : List Indication}

namespace UplinkQuality

/-- What is known of the blocks of a UE: before its first report, that none was measured. -/
def known (q : UplinkQuality) (r : Rnti) : List Float :=
  (q.sinr.get? r).getD (padded [] q.bandwidth)

/-- Samples that are enough already are not padded. -/
theorem padded_eq_self {samples : List Float} {n : Nat} (h : n ≤ samples.length) :
    padded samples n = samples := by
  rw [padded, Nat.sub_eq_zero_of_le h, List.replicate_zero, List.append_nil]

/-- What is known covers the band. -/
theorem Covers.bandwidth_le {ue : Rnti → Prop} {q : UplinkQuality} (h : q.Covers ue) (r : Rnti) :
    q.bandwidth ≤ (q.known r).length := by
  unfold known
  cases hget : q.sinr.get? r with
  | none => exact length_padded [] _ ▸ Nat.le_max_right ..
  | some samples => exact (h.of_get? hget).2

/-- The measurement of a block in the band changes what is known of that block only. -/
theorem known_setBlock {q : UplinkQuality} {r : Rnti} {block : Nat}
    (hlt : block < (q.known r).length) (value : Float) (r' : Rnti) :
    (q.setBlock r block value).known r' =
      if r = r' then (q.known r).set block value else q.known r' := by
  change ((q.sinr.report r ((padded (q.known r) (block + 1)).set block value)).get? r').getD
    (padded [] q.bandwidth) = _
  rw [AgingTable.get?_report, padded_eq_self hlt]
  split <;> rfl

end UplinkQuality

/-! ## Credit -/

/-- Whether the sample of a block is credited to a UE: the map gives it the block, and it is
configured. -/
def SchedulerState.Credits (s : SchedulerState Record) (map : BlockMap) (r : Rnti) (i : Nat) :
    Prop :=
  map.owner? i = some r ∧ r ≠ 0 ∧ r ∈ s.ues

/-- The quality `q` turned into `q'` by crediting samples, the first one to block 0. -/
structure Credited (s : SchedulerState Record) (map : BlockMap) (samples : List Float)
    (q q' : UplinkQuality) : Prop where
  /-- A UE is credited with the samples of its blocks. -/
  measured : ∀ r i, i < samples.length → s.Credits map r i → (q'.known r)[i]? = samples[i]?
  /-- Nothing else is known of any other block. -/
  others : ∀ r i, ¬(i < samples.length ∧ s.Credits map r i) →
    (q'.known r)[i]? = (q.known r)[i]?
  /-- The report of a UE that is credited with a sample is fresh. -/
  fresh : ∀ r, (∃ i < samples.length, s.Credits map r i) →
    q'.sinr.entries[r]?.map (·.remaining) = some q.sinr.threshold
  /-- The report of any other UE stays as it is. -/
  kept : ∀ r, (∀ i < samples.length, ¬s.Credits map r i) →
    q'.sinr.entries[r]? = q.sinr.entries[r]?
  /-- There are as many blocks as before. -/
  length : ∀ r, (q'.known r).length = (q.known r).length
  /-- So is the band. -/
  bandwidth : q'.bandwidth = q.bandwidth
  /-- Reports outlive as many refreshes as before. -/
  threshold : q'.sinr.threshold = q.sinr.threshold

namespace Credited

variable {map : BlockMap} {samples : List Float} {q q' : UplinkQuality} {r : Rnti}

/-- A report without samples changes nothing. -/
theorem nil (s : SchedulerState Record) (map : BlockMap) (q : UplinkQuality) :
    Credited s map [] q q where
  measured _ _ hi := absurd hi (Nat.not_lt_zero _)
  others _ _ _ := rfl
  fresh _ := fun ⟨_, hi, _⟩ => absurd hi (Nat.not_lt_zero _)
  kept _ _ := rfl
  length _ := rfl
  bandwidth := rfl
  threshold := rfl

/-- A sample of a longer report is one of those before, or the last one. -/
theorem lt_concat {i : Nat} (x : Float) (hi : i < (samples ++ [x]).length) :
    i < samples.length ∨ i = samples.length := by
  rw [List.length_append, List.length_singleton] at hi
  omega

/-- One more sample that is credited to nobody. -/
theorem skip (h : Credited s map samples q q') (x : Float)
    (hnone : ∀ r, ¬s.Credits map r samples.length) : Credited s map (samples ++ [x]) q q' := by
  have hlt : ∀ r i, i < (samples ++ [x]).length → s.Credits map r i → i < samples.length := by
    intro r i hi hcredits
    rcases lt_concat x hi with hlt | rfl
    · exact hlt
    · exact absurd hcredits (hnone r)
  have hle : samples.length ≤ (samples ++ [x]).length := by simp
  exact
    { h with
      measured := fun r i hi hcredits => by
        rw [List.getElem?_append_left (hlt r i hi hcredits)]
        exact h.measured r i (hlt r i hi hcredits) hcredits
      others := fun r i hi => h.others r i fun hcredits =>
        hi ⟨Nat.lt_of_lt_of_le hcredits.1 hle, hcredits.2⟩
      fresh := fun r hsome => by
        obtain ⟨i, hi, hcredits⟩ := hsome
        exact h.fresh r ⟨i, hlt r i hi hcredits, hcredits⟩
      kept := fun r hkept => h.kept r fun i hi => hkept i (Nat.lt_of_lt_of_le hi hle) }

/-- One more sample that is credited to a UE. -/
theorem store (h : Credited s map samples q q') (x : Float)
    (hr : s.Credits map r samples.length) (hlt : samples.length < (q.known r).length) :
    Credited s map (samples ++ [x]) q (q'.setBlock r samples.length x) := by
  have hle : samples.length ≤ (samples ++ [x]).length := by simp
  have hknown := UplinkQuality.known_setBlock ((h.length r).symm ▸ hlt) x
  -- A block has one owner.
  have howner : ∀ r', s.Credits map r' samples.length → r = r' := fun r' hr' =>
    Option.some.inj (hr.1.symm.trans hr'.1)
  refine
    { measured := fun r' i hi hcredits => ?_
      others := fun r' i hi => ?_
      fresh := fun r' hsome => ?_
      kept := fun r' hkept => ?_
      length := fun r' => ?_
      bandwidth := h.bandwidth
      threshold := h.threshold }
  · rw [hknown]
    rcases lt_concat x hi with hi | rfl
    · rw [List.getElem?_append_left hi, ← h.measured r' i hi hcredits]
      split
      next heq =>
        subst heq
        exact List.getElem?_set_ne (Nat.ne_of_gt hi)
      next => rfl
    · rw [if_pos (howner r' hcredits), List.getElem?_concat_length]
      exact List.getElem?_set_self ((h.length r).symm ▸ hlt)
  · rw [hknown, ← h.others r' i fun hcredits =>
      hi ⟨Nat.lt_of_lt_of_le hcredits.1 hle, hcredits.2⟩]
    split
    next heq =>
      subst heq
      refine List.getElem?_set_ne fun heq => hi ?_
      subst heq
      exact ⟨by simp, hr⟩
    next => rfl
  · change (q'.sinr.entries.insert r _)[r']?.map _ = _
    rw [Table.getElem?_insert]
    split
    · exact congrArg some h.threshold
    next hne =>
      obtain ⟨i, hi, hcredits⟩ := hsome
      rcases lt_concat x hi with hi | rfl
      · exact h.fresh r' ⟨i, hi, hcredits⟩
      · exact absurd (howner r' hcredits).symm hne
  · have hne : r' ≠ r := by
      rintro rfl
      exact hkept samples.length (by simp) hr
    change (q'.sinr.entries.insert r _)[r']? = _
    rw [Table.getElem?_insert, if_neg hne]
    exact h.kept r' fun i hi => hkept i (Nat.lt_of_lt_of_le hi hle)
  · rw [hknown, ← h.length r']
    split
    next heq => rw [List.length_set, heq]
    next => rfl

end Credited

namespace SchedulerState

/-- A report on data blocks credits its samples, each to the UE that has its block in the map. By
induction over the samples from the left: the fold keeps the length of what is known, so the block
of the next sample is always in the band. -/
theorem credited_creditSamples {map : BlockMap} (hsize : map.size = s.uplink.quality.bandwidth)
    (hcovers : s.uplink.quality.Covers (· ∈ s.ues)) (samples : List Float) :
    Credited s map samples s.uplink.quality (s.creditSamples map samples) := by
  unfold creditSamples
  dsimp only
  induction samples using List.reverseRecOn with
  | nil => exact .nil s map s.uplink.quality
  | append_singleton samples x ih =>
    rw [List.zipIdx_append, List.foldl_append, Nat.zero_add]
    simp only [List.zipIdx_cons, List.zipIdx_nil, List.foldl_cons, List.foldl_nil]
    split
    next hnone =>
      -- Nobody has the block, so nobody is credited.
      refine ih.skip x fun r hr => ?_
      cases hnone.symm.trans hr.1
    next r howner =>
      split
      next hunknown =>
        -- The owner is nobody, or was released, so the sample is dropped.
        refine ih.skip x fun r' hr' => ?_
        obtain rfl := Option.some.inj (howner.symm.trans hr'.1)
        rcases Bool.or_eq_true_iff.1 hunknown with hzero | hunknown
        · exact hr'.2.1 (of_decide_eq_true hzero)
        · rw [Std.ExtTreeMap.mem_iff_contains.1 hr'.2.2] at hunknown
          cases hunknown
      next hknown =>
        -- The owner is configured, and its report gets the sample.
        have hr : s.Credits map r samples.length := by
          simp only [Bool.or_eq_true, decide_eq_true_iff, Bool.not_eq_true', not_or,
            Bool.not_eq_false] at hknown
          exact ⟨howner, hknown.1, Std.ExtTreeMap.mem_iff_contains.2 hknown.2⟩
        refine ih.store x hr (Nat.lt_of_lt_of_le ?_ (hcovers.bandwidth_le r))
        rw [← hsize]
        exact (Array.getElem?_eq_some_iff.1 howner).1

end SchedulerState

/-! ## Reports along a run -/

/-- The maps a cell keeps after the events `es`. -/
structure Remembers (es : List (Event Record)) (s : SchedulerState Record) : Prop where
  /-- They are those of the retained triggers, in this order. -/
  recalls : List.Forall₂ (Recalls es) (retained es) s.uplink.history
  /-- No trigger without a report is newer than a retained one and not retained itself. -/
  suffix : retained es <:+ unused es
  /-- A trigger is retained if it was among the newest without a report ever since. -/
  retained_iff : ∀ n t, (n, t) ∈ retained es ↔
    (n, t) ∈ unused es ∧ ∀ m, n < m → m ≤ es.length → (n, t) ∈ newest (unused (es.take m))
  /-- A trigger without a report is the latest one for its subframe, and nothing reported on the
  subframe since. -/
  unused_iff : ∀ n t, (n, t) ∈ unused es ↔
    ∃ e, es[n]? = some e ∧ e.mapped? = some t ∧
      ∀ e' ∈ es.drop (n + 1), e'.mapped? ≠ some t ∧ e'.reported? ≠ some t
  /-- There are sixteen of them at most. -/
  depth : s.uplink.history.length ≤ 16
  /-- They are of different subframes. -/
  subframes : (s.uplink.history.map (·.1)).Nodup

/-- What becomes of a report on the data blocks of a subframe, which leads from `s` to `s'`. -/
structure Attributed (policy : Policy Record) (s : SchedulerState Record) (time : Subframe)
    (codes : List UInt16) (s' : SchedulerState Record) (said : List Indication) : Prop where
  /-- A report is not answered. -/
  silent : said = []
  /-- Without a map of the subframe, the report is ignored. -/
  ignored : (∀ past ∈ s.uplink.history, past.1 ≠ time) → s' = s
  /-- With a map, its samples are credited, and the map is used up. -/
  credited : ∀ map, (time, map) ∈ s.uplink.history →
    s' = { s with uplink := { s.uplink with
        quality := s'.uplink.quality
        history := s.uplink.history.filter (·.1 ≠ time) } } ∧
      Credited s map (codes.map Sinr.decode) s.uplink.quality s'.uplink.quality
  /-- Another report on the subframe is ignored. -/
  once : ∀ codes' rnti, s'.step policy (.sinr time .data codes' rnti) = .ok (s', [])

/-- In a cell that takes reports on data blocks, the maps that are kept say who could send, and
every report is credited by the map of its subframe. The kept maps are described by the run alone,
by the triggers that no report has used up and that were among the newest sixteen ever since;
whether a sample counts for a UE then depends on what was granted and answered in that trigger, and
on the UE being configured when the report comes in. -/
theorem Run.attributed (hrun : Run policy config es s) (hsource : config.sinrSource = .data)
    (hnames : ∀ e ∈ es, 0 ∉ e.request.rntis) :
    Remembers es s ∧ ∀ time codes rnti s' said,
      s.step policy (.sinr time .data codes rnti) = .ok (s', said) →
        Attributed policy s time codes s' said := by
  have hconsistent := hrun.reachable.consistent
  constructor
  · exact
      { recalls := hrun.recalls hsource hnames
        suffix := retained_suffix es
        retained_iff := fun _ _ => mem_retained
        unused_iff := fun _ _ => mem_unused
        depth := hconsistent.uplink.depth
        subframes := hconsistent.uplink.subframes }
  -- The report is accepted, so it finds a map of its subframe or none. In either case there is none
  -- afterwards, and another report is ignored.
  intro time codes rnti s' said hstep
  have hdata : s.config.sinrSource = .data := by rw [hrun.reachable.invariant.config, hsource]
  cases SchedulerState.accepted_of_step hstep with
  | sinrIgnored _ hother => exact absurd hdata.symm hother
  | unattributed hgrid _ hnone =>
    have hunknown : ∀ past ∈ s.uplink.history, past.1 ≠ time := by
      simpa using List.find?_eq_none.1 hnone
    exact
      { silent := rfl
        ignored := fun _ => rfl
        credited := fun map hmap => absurd rfl (hunknown _ hmap)
        once := fun _ _ => SchedulerState.step_of_accepted (.unattributed hgrid hdata hnone) }
  | @credited _ _ _ past hgrid _ hpast =>
    obtain ⟨t, map⟩ := past
    obtain rfl : t = time := by simpa using List.find?_some hpast
    have hmem := List.mem_of_find?_eq_some hpast
    rw [eraseP_eq_filter t hconsistent.uplink.subframes]
    refine ⟨rfl, fun hunknown => absurd rfl (hunknown _ hmem), fun map' hmap' => ⟨rfl, ?_⟩,
      fun _ _ => SchedulerState.step_of_accepted (.unattributed hgrid hdata ?_)⟩
    · -- There is one map of the subframe.
      obtain ⟨-, rfl⟩ := Prod.mk.inj (List.inj_on_of_nodup_map hconsistent.uplink.subframes hmem
        hmap' rfl)
      refine s.credited_creditSamples ?_ hconsistent.uplink.quality (codes.map Sinr.decode)
      rw [hconsistent.uplink.history _ hmem, hconsistent.uplink.bandwidth]
    · exact List.find?_eq_none.2 fun past hpast => by simpa using (List.mem_filter.1 hpast).2

/-- A run in which UE 1 is answered with the first blocks of a subframe and UE 2 granted the others,
and a report on them. -/
theorem attributed_data_beside_answer :
    ∃ (es : List (Event Throughput)) (s s' : SchedulerState Throughput) (said : List Indication)
      (config : SchedulerConfig) (map : BlockMap),
      Run .tdBet config es s ∧ config.sinrSource = .data ∧ (∀ e ∈ es, 0 ∉ e.request.rntis) ∧
      s.step .tdBet (.sinr ⟨4⟩ .data (List.replicate 15 80) none) = .ok (s', said) ∧
      retained es = [(7, ⟨4⟩)] ∧ s.uplink.history = [(⟨4⟩, map)] ∧
      s.Credits map 1 0 ∧ s.Credits map 2 5 ∧ Remembers es s ∧
      Attributed .tdBet s ⟨4⟩ (List.replicate 15 80) s' said ∧
      (s'.uplink.quality.known 1)[0]? = some (Sinr.decode 80) ∧
      (s'.uplink.quality.known 2)[5]? = some (Sinr.decode 80) ∧ s'.uplink.history = [] := by
  obtain ⟨es, e, hrun, hstep, hcheck⟩ := Run.of_replay_step .tdBet
    { SchedulerConfig.default with sinrSource := .data }
    [.connect true true, .configureCell 15 15, .configureUe 1 .singleAntenna,
      .configureUe 2 .singleAntenna, .randomAccess [⟨1, 7, 100⟩], .downlinkTrigger [],
      .uplinkControls [(2, .bufferStatus [10, 0, 0, 0])], .uplinkTrigger ⟨4⟩ []]
    (.sinr ⟨4⟩ .data (List.replicate 15 80) none)
    (fun es e => es.all (fun e => !e.request.rntis.contains 0) &&
      retained es == [(7, ⟨4⟩)] && e.before.ues.contains 1 && e.before.ues.contains 2 &&
      e.before.uplink.history == [(⟨4⟩, ⟨#[1, 1, 1, 1, 1, 2, 2, 2, 2, 2, 2, 2, 2, 2, 2]⟩)])
    (by decide +kernel)
  simp only [Bool.and_eq_true, beq_iff_eq] at hcheck
  obtain ⟨⟨⟨⟨hnames, hretained⟩, hone⟩, htwo⟩, hhistory⟩ := hcheck
  have hnames : ∀ e ∈ es, 0 ∉ e.request.rntis := by simpa using hnames
  obtain ⟨hremembers, hreports⟩ := hrun.attributed rfl hnames
  have hreport := hreports ⟨4⟩ _ none _ _ hstep
  obtain ⟨hafter, hcredited⟩ := hreport.credited _ (hhistory ▸ List.mem_singleton_self _)
  have hfirst : e.before.Credits ⟨#[1, 1, 1, 1, 1, 2, 2, 2, 2, 2, 2, 2, 2, 2, 2]⟩ 1 0 :=
    ⟨rfl, by decide, Std.ExtTreeMap.mem_iff_contains.2 hone⟩
  have hsecond : e.before.Credits ⟨#[1, 1, 1, 1, 1, 2, 2, 2, 2, 2, 2, 2, 2, 2, 2]⟩ 2 5 :=
    ⟨rfl, by decide, Std.ExtTreeMap.mem_iff_contains.2 htwo⟩
  refine ⟨es, e.before, e.after, e.said, _, _, hrun, rfl, hnames, hstep, hretained, hhistory,
    hfirst, hsecond, hremembers, hreport, hcredited.measured 1 0 (by simp) hfirst,
    hcredited.measured 2 5 (by simp) hsecond, ?_⟩
  rw [hafter, hhistory]
  rfl

end LteMac
