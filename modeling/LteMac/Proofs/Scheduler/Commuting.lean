import LteMac.Proofs.Scheduler.Invariant
import LteMac.Proofs.Scheduler.Lockstep

/-!
# Requests that commute

Two requests that name different UEs may come in either order. Both are answered the same, and the
cells afterwards cannot be told apart: their tables, reuse policies and cursors are equal, but the
UEs may have got other slots in the arena.

The proof does not go through the pairs of requests. Either request is personal, so the UEs it does
not name cannot tell that it was made. In particular the other request finds those it names as they
were, and is answered as if it came first. After both, everybody outside of the first request agrees
between the two orders by this argument, and everybody outside of the second one as well; as no UE
is named by both, these are all UEs. What is left are the commons, which change with releases only,
and it makes no difference who is released first.

The slots are where the two cells may differ, and they differ for good. To be the same but for slots
is not an observation at one moment only: the cells stay so under any further requests, and answer
them alike.

* `SchedulerState.SameButSlots`: equal up to the slots of the arena;
* `SchedulerState.twins_of_swap`: two accepted requests in either order;
* `Reachable.requests_commute`: accepted or not, and whatever comes afterwards.
-/

namespace LteMac

variable {Record : Type} {policy : Policy Record} {config : SchedulerConfig}
  {s s₁ s₂ t : SchedulerState Record} {q q' : Request} {a b : List Indication}

/-! ## Releases -/

/-- Of two UEs that go, the cursor may be at one, and goes back for that one. -/
theorem SchedulerState.resetCursor_comm (cursor r r' : Rnti) :
    resetCursor (resetCursor cursor r) r' = resetCursor (resetCursor cursor r') r := by
  simp only [resetCursor]
  grind

/-- Blocks of two UEs are given back in either order. -/
theorem BlockMap.release_comm (m : BlockMap) (r r' : Rnti) :
    (m.release r).release r' = (m.release r').release r := by
  simp only [release, Array.map_map, mk.injEq]
  exact congrArg (Array.map · m.owners) (funext fun x => SchedulerState.resetCursor_comm x r r')

/-- It makes no difference who is released first. -/
theorem Commons.without_comm (c : Commons) (r r' : Rnti) :
    (c.without r).without r' = (c.without r').without r := by
  simp only [without, List.filter_filter, List.map_map, Function.comp_def,
    BlockMap.release_comm _ r r', SchedulerState.resetCursor_comm _ r r', Bool.and_comm]

/-- The commons do not tell in which order two requests came. -/
theorem Request.leaves_comm (q q' : Request) (c : Commons) :
    q'.leaves (q.leaves c) = q.leaves (q'.leaves c) := by
  cases q with
  | releaseUe r =>
    cases q' with
    | releaseUe r' => exact c.without_comm r r'
    | _ => rfl
  | _ => cases q' <;> rfl

namespace SchedulerState

/-! ## Cells that differ in slots only -/

/-- Two cells are equal, except that UEs may have their processes in different slots. -/
structure SameButSlots (s t : SchedulerState Record) : Prop where
  /-- Everything but the arena is equal. -/
  rest : t = { s with downlink := { s.downlink with harq := t.downlink.harq } }
  /-- Every UE has the same processes. -/
  entity : ∀ r, s.downlink.harq.entity? r = t.downlink.harq.entity? r
  /-- Everything is equally large. -/
  sizes : s.sizes = t.sizes

namespace Twins

/-- A cell is its own twin. -/
theorem refl (h : s.downlink.harq.Separate) : Twins (fun _ => True) s s where
  toAgreeOn := .refl h
  commons := rfl
  reuse := rfl
  quality := rfl
  feedback _ _ := trivial
  idle _ hr := absurd trivial hr

/-- Cells that agree on everybody and in the commons are twins. -/
theorem of_agreeOn (h : AgreeOn (fun _ => True) s t) (hcommons : s.commons = t.commons) :
    Twins (fun _ => True) s t where
  toAgreeOn := h
  commons := hcommons
  reuse := reuse_eq_of_dossier h.setup fun r => congrArg Dossier.memory (h.dossier r trivial)
  quality := quality_eq_of_dossier h.setup
    (fun r => congrArg Dossier.wideband (h.dossier r trivial))
    fun r => congrArg Dossier.subband (h.dossier r trivial)
  feedback _ _ := trivial
  idle _ hr := absurd trivial hr

/-- Twins of everybody are the same but for slots. -/
theorem sameButSlots (h : Twins (fun _ => True) s t) : s.SameButSlots t := by
  have hrest := eq_of_dossier h.setup (fun r => h.dossier r trivial) h.commons
  have hentity : ∀ r, s.downlink.harq.entity? r = t.downlink.harq.entity? r :=
    fun r => h.harq.entity r trivial
  refine ⟨hrest, hentity, ?_⟩
  have hkeys : s.downlink.harq.index.keys = t.downlink.harq.index.keys :=
    Table.keys_congr fun r => by rw [h.separate.mem_index, h.separate'.mem_index, hentity]
  have hsize : s.downlink.harq.size = t.downlink.harq.size := by
    rw [DownlinkHarq.size, ← Std.ExtTreeMap.length_keys, hkeys, Std.ExtTreeMap.length_keys,
      DownlinkHarq.size]
  rw [hrest]
  simp only [sizes, hsize]

end Twins

/-! ## Either order -/

section Swap

variable (hs : s.downlink.harq.Separate) (hq : q.isPersonal = true) (hq' : q'.isPersonal = true)
  (hdisjoint : q.rntis.Disjoint q'.rntis)

include hs hq hq' hdisjoint

/-- A request is answered the same after one that names other UEs. -/
theorem answered_after (h₁ : s.step policy q = .ok (s₁, a)) :
    Answered (AgreeOn (· ∉ q.rntis)) (s.step policy q') (s₁.step policy q') :=
  (agreeOn_of_personal hs hq h₁).answered hq' fun _ hr' hr => hdisjoint hr hr'

/-- A request that is refused is refused after the other one as well, for the same cause. -/
theorem refused_after {cause : SchedulerError} (h₁ : s.step policy q = .ok (s₁, a))
    (h₂ : s.step policy q' = .error cause) : s₁.step policy q' = .error cause := by
  have hanswered := answered_after hs hq hq' hdisjoint h₁
  rw [h₂] at hanswered
  generalize s₁.step policy q' = x at hanswered
  cases hanswered with
  | refused => rfl

/-- A request that is accepted is accepted after the other one as well. -/
theorem accepted_after (h₁ : s.step policy q = .ok (s₁, a))
    (h₂ : s.step policy q' = .ok (s₂, b)) :
    ∃ t, s₁.step policy q' = .ok (t, b) ∧ AgreeOn (· ∉ q.rntis) s₂ t := by
  have hanswered := answered_after hs hq hq' hdisjoint h₁
  rw [h₂] at hanswered
  generalize s₁.step policy q' = x at hanswered
  cases hanswered with
  | accepted hnext => exact ⟨_, rfl, hnext⟩

/-- Two requests that name different UEs, accepted in either order: whom the one does not name
cannot tell which came first, nor can whom the other does not name. -/
theorem twins_of_swap (h₁ : s.step policy q = .ok (s₁, a)) (h₂ : s.step policy q' = .ok (s₂, b)) :
    ∃ t t', s₁.step policy q' = .ok (t, b) ∧ s₂.step policy q = .ok (t', a) ∧
      Twins (fun _ => True) t t' := by
  -- From `s₂` the first order adds an edit of the UEs of `q`, and so does the second order; from
  -- `s₁` both add one of the UEs of `q'`. No UE is in both lists.
  obtain ⟨t, ht, hsecond⟩ := accepted_after hs hq hq' hdisjoint h₁ h₂
  obtain ⟨t', ht', hfirst⟩ := accepted_after hs hq' hq (List.disjoint_symm hdisjoint) h₂ h₁
  have hleft : AgreeOn (· ∉ q.rntis) t t' :=
    hsecond.symm.trans (agreeOn_of_personal hsecond.separate hq ht')
  have hright : AgreeOn (· ∉ q'.rntis) t t' :=
    (agreeOn_of_personal hfirst.separate hq' ht).symm.trans hfirst
  refine ⟨t, t', ht, ht', .of_agreeOn { hleft with dossier := fun r _ => ?_ } ?_⟩
  · by_cases hr : r ∈ q.rntis
    · exact hright.dossier r fun hr' => hdisjoint hr hr'
    · exact hleft.dossier r hr
  · rw [commons_of_personal hq' ht, commons_of_personal hq h₁, commons_of_personal hq ht',
      commons_of_personal hq' h₂, Request.leaves_comm]

/-- Two requests that name different UEs, whether they are accepted or not. -/
theorem respond_swap (policy : Policy Record) :
    ∃ answer answer' t t',
      s.respond policy [q, q'] = ([(q, answer), (q', answer')], t) ∧
      s.respond policy [q', q] = ([(q', answer'), (q, answer)], t') ∧
      Twins (fun _ => True) t t' := by
  have hdisjoint' := List.disjoint_symm hdisjoint
  -- Each request is accepted or refused on its own, and the other one does not change which.
  cases h₁ : s.step policy q with
  | error cause =>
    cases h₂ : s.step policy q' with
    | error cause' =>
      refine ⟨.error cause, .error cause', s, s, ?_, ?_, .refl hs⟩
      · rw [respond_cons_of_error h₁, respond_cons_of_error h₂, respond]
      · rw [respond_cons_of_error h₂, respond_cons_of_error h₁, respond]
    | ok out =>
      obtain ⟨s₂, b⟩ := out
      have h₁' := refused_after hs hq' hq hdisjoint' h₂ h₁
      refine ⟨.error cause, .ok b, s₂, s₂, ?_, ?_,
        .refl (agreeOn_of_personal hs hq' h₂).separate'⟩
      · rw [respond_cons_of_error h₁, respond_cons_of_ok h₂, respond]
      · rw [respond_cons_of_ok h₂, respond_cons_of_error h₁', respond]
  | ok out =>
    obtain ⟨s₁, a⟩ := out
    cases h₂ : s.step policy q' with
    | error cause' =>
      have h₂' := refused_after hs hq hq' hdisjoint h₁ h₂
      refine ⟨.ok a, .error cause', s₁, s₁, ?_, ?_,
        .refl (agreeOn_of_personal hs hq h₁).separate'⟩
      · rw [respond_cons_of_ok h₁, respond_cons_of_error h₂', respond]
      · rw [respond_cons_of_error h₂, respond_cons_of_ok h₁, respond]
    | ok out =>
      obtain ⟨s₂, b⟩ := out
      obtain ⟨t, t', ht, ht', htwins⟩ := twins_of_swap hs hq hq' hdisjoint h₁ h₂
      refine ⟨.ok a, .ok b, t, t', ?_, ?_, htwins⟩
      · rw [respond_cons_of_ok h₁, respond_cons_of_ok ht, respond]
      · rw [respond_cons_of_ok h₂, respond_cons_of_ok ht', respond]

end Swap

end SchedulerState

/-- In every reachable state, two requests that name different UEs are answered the same in either
order. The cells afterwards are equal but for the slots of the arena, and they stay so while they
answer any further requests the same. -/
theorem Reachable.requests_commute {algorithm : Algorithm} {s : SchedulerState algorithm.Record}
    (h : Reachable (algorithm.policy config) config s) (hq : q.isPersonal = true)
    (hq' : q'.isPersonal = true) (hdisjoint : q.rntis.Disjoint q'.rntis) :
    ∃ answer answer' t t',
      s.respond (algorithm.policy config) [q, q'] = ([(q, answer), (q', answer')], t) ∧
      s.respond (algorithm.policy config) [q', q] = ([(q', answer'), (q, answer)], t') ∧
      t.SameButSlots t' ∧
      ∀ qs, (t.respond (algorithm.policy config) qs).1 =
          (t'.respond (algorithm.policy config) qs).1 ∧
        (t.respond (algorithm.policy config) qs).2.SameButSlots
          (t'.respond (algorithm.policy config) qs).2 := by
  obtain ⟨answer, answer', t, t', hfirst, hsecond, htwins⟩ := SchedulerState.respond_swap
    h.invariant.sound.separate hq hq' hdisjoint (algorithm.policy config)
  refine ⟨answer, answer', t, t', hfirst, hsecond, htwins.sameButSlots, fun qs => ?_⟩
  obtain ⟨hanswers, hnext⟩ :=
    htwins.respond (algorithm.local_policy config) fun _ _ _ _ => trivial
  exact ⟨hanswers, hnext.sameButSlots⟩

/-- A UE is released and another one configured: in one order the new UE gets the slot of the former
one, in the other order it gets a slot of its own. -/
theorem requests_commute_across_slots :
    ∃ (s t t' : SchedulerState Throughput)
      (answer answer' : Except SchedulerError (List Indication)),
      Reachable (Algorithm.tdBet.policy .default) .default s ∧
      s.respond (Algorithm.tdBet.policy .default) [.releaseUe 1, .configureUe 3 .singleAntenna] =
        ([(.releaseUe 1, answer), (.configureUe 3 .singleAntenna, answer')], t) ∧
      s.respond (Algorithm.tdBet.policy .default) [.configureUe 3 .singleAntenna, .releaseUe 1] =
        ([(.configureUe 3 .singleAntenna, answer'), (.releaseUe 1, answer)], t') ∧
      t.downlink.harq.index[(3 : Rnti)]? = some 0 ∧ t'.downlink.harq.index[(3 : Rnti)]? = some 2 ∧
      t.SameButSlots t' := by
  obtain ⟨es, e, hrun, -, hcheck⟩ := Run.of_replay_step (Algorithm.tdBet.policy .default) .default
    [.connect true true, .configureCell 6 6, .configureUe 1 .singleAntenna,
      .configureUe 2 .singleAntenna]
    .noise
    (fun _ e =>
      (e.before.respond (Algorithm.tdBet.policy .default)
        [.releaseUe 1, .configureUe 3 .singleAntenna]).2.downlink.harq.index[(3 : Rnti)]? ==
          some 0 &&
      (e.before.respond (Algorithm.tdBet.policy .default)
        [.configureUe 3 .singleAntenna, .releaseUe 1]).2.downlink.harq.index[(3 : Rnti)]? ==
          some 2)
    (by decide +kernel)
  simp only [Bool.and_eq_true, beq_iff_eq] at hcheck
  obtain ⟨hslot, hslot'⟩ := hcheck
  have hrelease : (Request.releaseUe 1).isPersonal = true := rfl
  have hconfigure : (Request.configureUe 3 .singleAntenna).isPersonal = true := rfl
  obtain ⟨answer, answer', t, t', hfirst, hsecond, hsame, -⟩ :=
    hrun.reachable.requests_commute hrelease hconfigure (by simp [Request.rntis])
  rw [hfirst] at hslot
  rw [hsecond] at hslot'
  exact ⟨e.before, t, t', answer, answer', hrun.reachable, hfirst, hsecond, hslot, hslot', hsame⟩

end LteMac
