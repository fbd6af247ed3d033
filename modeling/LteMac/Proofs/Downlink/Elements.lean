import LteMac.Proofs.Downlink.Lineage
import LteMac.Proofs.Downlink.Payload
import LteMac.Proofs.Scheduler.Entries
import Mathlib.Data.List.DropRight

/-!
# The control elements of a UE

Control elements are asked for one by one and sent together: the next block of new data for the UE
takes all that wait, and a block that is sent again takes none. So they are neither lost nor sent
twice, however often the UE is passed over in between.

Elements are a set, so asking for the same one twice before it is sent is asking once, and an
account of them is a union. The account of a UE is cleared when the UE is configured and by each
block of new data, and what it says at any time can be read off the events since (`askedSince`).
That the cell keeps this account (`Waiting`) is an invariant of the run; what a block carries is
then what the account says when its trigger comes.

* `Waiting.of_step`: a request keeps the account of what waits;
* `Run.elements_accounted`: what waits, and what each block takes, is the union of what was asked
  for since the account of the UE was last cleared.
-/

namespace LteMac

variable {Record : Type} {r : Rnti}

/-! ## Unions -/

namespace ControlElements

/-- The elements of any of the sets. -/
def unionAll (sets : List ControlElements) : ControlElements := sets.foldl union empty

/-- The elements of any of the sets, once there is a set. -/
def unionAll? (sets : List ControlElements) : Option ControlElements :=
  if sets.isEmpty then none else some (unionAll sets)

variable {sets : List ControlElements}

/-- An element is in a union if it is in one of the sets. -/
theorem getLsbD_unionAll (i : Nat) :
    (unionAll sets).bits.getLsbD i = sets.any (·.bits.getLsbD i) := by
  induction sets using List.reverseRecOn with
  | nil => simp [unionAll, empty]
  | append_singleton sets x ih =>
    rw [unionAll, List.foldl_append, List.foldl_cons, List.foldl_nil, union, BitVec.getLsbD_or,
      List.any_append]
    exact congrArg₂ _ ih (Bool.or_false _).symm

/-- The union of no sets is empty, whether there is one or not. -/
theorem getD_unionAll? : (unionAll? sets).getD empty = unionAll sets := by
  cases sets with
  | nil => rfl
  | cons => rfl

/-- One more set. -/
theorem unionAll?_concat (x : ControlElements) :
    unionAll? (sets ++ [x]) = some (((unionAll? sets).getD empty).union x) := by
  rw [getD_unionAll?, unionAll?, unionAll, List.foldl_append, if_neg (by simp)]
  rfl

end ControlElements

/-! ## Accounts -/

namespace Event

/-- The control elements that an event asks for a UE. -/
def asked (e : Event Record) (r : Rnti) : Option ControlElements :=
  match e.request with
  | .controlElements r' elements => if r' = r then some elements else none
  | _ => none

/-- Whether an event clears the account of a UE: it configures the UE, or sends it new data. -/
def clears (e : Event Record) (r : Rnti) : Bool :=
  e.configures r || e.blocks.any fun b => b.rnti = r && b.isNew

end Event

/-- The control elements asked for a UE since its account was last cleared. -/
def askedSince (es : List (Event Record)) (r : Rnti) : List ControlElements :=
  (es.rtakeWhile fun e => !e.clears r).filterMap (·.asked r)

/-- What waits for each UE is what was asked for it since its account was last cleared. -/
def Waiting (es : List (Event Record)) (s : SchedulerState Record) : Prop :=
  ∀ (r : Rnti) (u : DownlinkUe Record), s.downlink.ues[r]? = some u →
    u.elements = ControlElements.unionAll? (askedSince es r)

section Accounts

variable {es : List (Event Record)} {e : Event Record}

/-- After an event that clears the account nothing is on it. -/
theorem askedSince_of_clears (h : e.clears r = true) : askedSince (es ++ [e]) r = [] := by
  rw [askedSince, List.rtakeWhile_concat_neg _ _ _ (by simp [h])]
  rfl

/-- Any other event adds what it asks for the UE. -/
theorem askedSince_of_not_clears (h : e.clears r = false) :
    askedSince (es ++ [e]) r = askedSince es r ++ (e.asked r).toList := by
  rw [askedSince, List.rtakeWhile_concat_pos _ _ _ (by simp [h]), List.filterMap_append]
  cases hasked : e.asked r <;> simp [askedSince, hasked]

end Accounts

/-! ## Blocks that are sent again -/

/-- A block that is sent again carries no control elements. -/
theorem Retransmission.elements_handleAll (reuse : ReusePolicy) (harq : DownlinkHarq)
    (o : Occupancy) (pending : List HarqFeedback) :
    ∀ b ∈ (handleAll reuse harq o pending).sent, b.elements = .empty := by
  induction pending using List.reverseRecOn with
  | nil => simp [handleAll]
  | append_singleton pending f ih =>
    rw [handleAll_concat]
    have hf := Round.handled_handle reuse (handleAll reuse harq o pending) f
    generalize Round.handle reuse (handleAll reuse harq o pending) f = round' at hf ⊢
    cases hf with
    | dropped | freed | kept => exact ih
    | again => exact List.forall_mem_append.2 ⟨ih, by simp⟩

/-! ## A trigger -/

namespace DownlinkTrigger

variable {policy : Policy Record} {es : List (Event Record)} {s : SchedulerState Record}
  {grid : Grid} {feedback : List HarqFeedback} {b : DataGrant} {u : DownlinkUe Record}

/-- A block of a trigger that is no new data is one that is sent again, and carries no control
elements. -/
theorem elements_of_not_isNew (hsound : s.downlink.harq.Sound) (hgrid : grid.rbgCount ≤ 32)
    (hb : b ∈ data policy s grid feedback) (hnew : b.isNew = false) : b.elements = .empty := by
  rcases List.mem_append.1 hb with hb | hb
  · unfold retries retransmit at hb
    split at hb
    · exact Retransmission.elements_handleAll _ _ _ _ b hb
    · cases hb
  · rw [((fair_fresh policy s grid feedback hsound hgrid).first b hb).isNew] at hnew
    cases hnew

/-- A trigger clears the accounts of those it sends new data, and keeps the others. -/
theorem elements_event (h : Waiting es s) (hsound : s.downlink.harq.Sound)
    (hgrid : grid.rbgCount ≤ 32)
    (hu : (event policy s grid feedback).after.downlink.ues[r]? = some u) :
    u.elements =
      ControlElements.unionAll? (askedSince (es ++ [event policy s grid feedback]) r) := by
  have haccounts : Accounts s (decide policy s grid feedback).1 (decision policy s grid feedback) :=
    accounts_decide hsound hgrid
  by_cases hsent : ∃ b ∈ data policy s grid feedback, b.isNew = true ∧ b.rnti = r
  -- The UE is sent new data, which takes all its elements along.
  · obtain ⟨b, hb, hnew, rfl⟩ := hsent
    have hclears : (event policy s grid feedback).clears b.rnti = true := by
      rw [Event.clears, blocks_event, Bool.or_eq_true, List.any_eq_true]
      exact .inr ⟨b, hb, by simp [hnew]⟩
    obtain ⟨_, u', -, hu', hcarries⟩ := haccounts.sent b hb hnew
    obtain rfl : u' = u := Option.some.inj (hu'.symm.trans hu)
    rw [askedSince_of_clears hclears, hcarries.elements.2]
    rfl
  · push Not at hsent
    have hclears : (event policy s grid feedback).clears r = false := by
      rw [Event.clears, blocks_event, Bool.or_eq_false_iff, List.any_eq_false]
      refine ⟨rfl, fun b hb => ?_⟩
      simpa using fun hr hnew => hsent b hb hnew hr
    have hasked : (event policy s grid feedback).asked r = none := rfl
    -- The UE is sent no new data, so what waits for it is what waited before.
    have hold := haccounts.others r hsent
    obtain ⟨u₀, hu₀, heq⟩ := Option.map_eq_some_iff.1 (hold.symm.trans (congrArg _ hu))
    rw [askedSince_of_not_clears hclears, hasked, Option.toList_none, List.append_nil,
      ← h r u₀ hu₀]
    exact (Prod.mk.inj heq).2.symm

end DownlinkTrigger

/-! ## Runs -/

variable {policy : Policy Record} {config : SchedulerConfig} {es : List (Event Record)}
  {s s' : SchedulerState Record} {q : Request} {said : List Indication}

/-- A request that does not regard a UE asks nothing for it and clears nothing. -/
theorem askedSince_of_regards (hq : q.regards r = false)
    (hsaid : said.flatMap (·.blocks) = []) :
    askedSince (es ++ [⟨s, q, s', said⟩]) r = askedSince es r := by
  have hclears : Event.clears ⟨s, q, s', said⟩ r = false := by
    rw [Event.clears, Event.blocks, hsaid, Event.configures_of_regards hq]
    rfl
  have hasked : Event.asked (⟨s, q, s', said⟩ : Event Record) r = none := by
    cases q <;> simp_all [Event.asked, Request.regards]
  rw [askedSince_of_not_clears hclears, hasked, Option.toList_none, List.append_nil]

/-- A request keeps the account of what waits. -/
theorem Waiting.of_step (h : Waiting es s) (hinv : s.Invariant config)
    (hstep : s.step policy q = .ok (s', said)) : Waiting (es ++ [⟨s, q, s', said⟩]) s' := by
  intro r u' hu'
  cases SchedulerState.entries_of_step hstep r with
  | added hdownlink =>
    obtain rfl := Option.some.inj (hdownlink.symm.trans hu')
    rw [askedSince_of_clears (by simp [Event.clears, Event.configures])]
    rfl
  | removed hdownlink => cases hdownlink.symm.trans hu'
  -- One more request for elements is one more set in the union.
  | @asked x _ hdownlink =>
    obtain ⟨u, hu, rfl⟩ := Option.map_eq_some_iff.1 (hdownlink.symm.trans hu')
    have hasked : Event.asked (⟨s, .controlElements r x, s', []⟩ : Event Record) r = some x :=
      if_pos rfl
    rw [askedSince_of_not_clears rfl, hasked, Option.toList_some, ControlElements.unionAll?_concat,
      ← h r u hu]
  | downlink hgrid =>
    exact DownlinkTrigger.elements_event h hinv.sound (hinv.rbgCount_le hgrid) hu'
  | uplink =>
    rw [askedSince_of_not_clears rfl]
    exact (h r u' hu').trans (congrArg _ (List.append_nil _).symm)
  -- All other requests keep the elements, and the account of what was asked for.
  | kept hq hsaid hdownlink hf =>
    obtain ⟨u, hu, rfl⟩ := Option.map_eq_some_iff.1 (hdownlink.symm.trans hu')
    rw [askedSince_of_regards hq hsaid, (hf u).elements]
    exact h r u hu

/-- The control elements of a run are accounted for: what waits after it, and what was sent. -/
structure ElementsAccounted (es : List (Event Record)) (s : SchedulerState Record) : Prop where
  /-- For a configured UE waits what was asked for it since its account was last cleared. -/
  waiting : ∀ r ∈ s.ues, ∃ u, s.downlink.ues[r]? = some u ∧
    u.elements = ControlElements.unionAll? (askedSince es r)
  /-- For nobody else anything waits. -/
  strangers : ∀ r, r ∉ s.ues → s.downlink.ues[r]? = none
  /-- A block of new data carries what had been asked for its UE by then. -/
  sent : ∀ (n : Nat) (e : Event Record), es[n]? = some e → ∀ b ∈ e.blocks, b.isNew = true →
    b.elements = ControlElements.unionAll (askedSince (es.take n) b.rnti)
  /-- Any other block carries none. -/
  again : ∀ e ∈ es, ∀ b ∈ e.blocks, b.isNew = false → b.elements = .empty

namespace Run

/-- Along a run, what waits for each UE is what the events say. -/
theorem waiting (h : Run policy config es s) : Waiting es s := by
  refine h.invariant (P := Waiting) ?_ fun hrun hwaiting hstep =>
    hwaiting.of_step hrun.reachable.invariant hstep
  intro r u hu
  simp [SchedulerState.initial] at hu

/-- A data block of a run is one of a downlink trigger. -/
theorem data_of_mem_blocks (h : Run policy config es s) {n : Nat} {e : Event Record}
    (he : es[n]? = some e) {b : DataGrant} (hb : b ∈ e.blocks) :
    ∃ feedback grid, Run policy config (es.take n) e.before ∧ e.before.downlink.harq.Sound ∧
      grid.rbgCount ≤ 32 ∧ b ∈ DownlinkTrigger.data policy e.before grid feedback := by
  obtain ⟨hbefore, hstep⟩ := h.before_of_getElem? he
  have hinv := hbefore.reachable.invariant
  obtain ⟨feedback, grid, -, hgrid, -, hdata⟩ := SchedulerState.trigger_of_mem_blocks hstep hb
  exact ⟨feedback, grid, hbefore, hinv.sound, hinv.rbgCount_le hgrid, hdata⟩

/-- Control elements are neither lost nor sent twice: at any time, what waits for a UE is the union
of what was asked for it since its last block of new data, or since it was configured, and a block
of new data takes all of it. Blocks that are sent again carry none. -/
theorem elements_accounted (h : Run policy config es s) : ElementsAccounted es s where
  waiting r hr := by
    obtain ⟨u, hu⟩ := Table.exists_of_mem ((h.reachable.consistent.downlink.records.keys r).2 hr)
    exact ⟨u, hu, h.waiting r u hu⟩
  strangers r hr :=
    Table.not_mem_iff.1 fun hmem => hr ((h.reachable.consistent.downlink.records.keys r).1 hmem)
  sent n e he b hb hnew := by
    obtain ⟨feedback, grid, hbefore, hsound, hgrid, hdata⟩ := h.data_of_mem_blocks he hb
    have haccounts : DownlinkTrigger.Accounts e.before
        (DownlinkTrigger.decide policy e.before grid feedback).1
        (DownlinkTrigger.decision policy e.before grid feedback) :=
      DownlinkTrigger.accounts_decide hsound hgrid
    obtain ⟨u, _, hu, -, hcarries⟩ := haccounts.sent b hdata hnew
    rw [hcarries.elements.1, hbefore.waiting b.rnti u hu, ControlElements.getD_unionAll?]
  again e he b hb hnew := by
    obtain ⟨n, hn⟩ := List.mem_iff_getElem?.1 he
    obtain ⟨feedback, grid, -, hsound, hgrid, hdata⟩ := h.data_of_mem_blocks hn hb
    exact DownlinkTrigger.elements_of_not_isNew hsound hgrid hdata hnew

end Run

/-- A UE is asked two kinds of elements, one of them while it cannot be reached, and then one more
while its block is sent again. -/
def askedInBetween : List Request :=
  [.connect true true, .configureCell 6 6, .installReuse (.hard 6 6 ⟨0, 1⟩ ⟨0, 6⟩),
    .configureUe 1 .singleAntenna, .controlElements 1 ⟨1⟩,
    .quality [⟨1, 1, .wideband, [0], []⟩], .downlinkTrigger [], .controlElements 1 ⟨4⟩,
    .quality [⟨1, 1, .wideband, [9], []⟩], .downlinkTrigger [], .controlElements 1 ⟨2⟩]

/-- The first block carries what was asked before it, the block that is sent again carries nothing,
and the last kind waits. -/
theorem elements_accounted_askedInBetween :
    ∃ (es : List (Event Throughput)) (s : SchedulerState Throughput),
      Run .tdBet .default es s ∧
      es.flatMap (fun e => e.blocks.map fun b => (b.isNew, b.elements)) =
        [(true, ⟨5⟩), (false, ⟨0⟩)] ∧
      s.downlink.ues.values.map (·.elements) = [some ⟨2⟩] ∧ ElementsAccounted es s := by
  obtain ⟨es, e, hrun, hstep, hcheck⟩ := Run.of_replay_step .tdBet .default askedInBetween
    (.downlinkTrigger [⟨1, 1, [.nack]⟩])
    (fun es e => (es ++ [e]).flatMap (fun e => e.blocks.map fun b => (b.isNew, b.elements)) ==
        [(true, ⟨5⟩), (false, ⟨0⟩)] &&
      e.after.downlink.ues.values.map (·.elements) == [some ⟨2⟩]) (by decide +kernel)
  have hrun := hrun.step hstep
  simp only [Bool.and_eq_true, beq_iff_eq] at hcheck
  obtain ⟨hblocks, hwaiting⟩ := hcheck
  refine ⟨_, e.after, hrun, ?_, hwaiting, hrun.elements_accounted⟩
  simpa [Event.blocks] using hblocks

end LteMac
