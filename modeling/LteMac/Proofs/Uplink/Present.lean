import LteMac.Proofs.Uplink.Synchronous

/-!
# The present subframe of a UE

A UE sends one block in an uplink subframe, and has one process for it. Three ways lead to that
process: the answer to a random access, which a downlink trigger gives, and a failed block or new
data, which the uplink trigger grants. The uplink trigger keeps the last two apart, but it does not
look at the answers: a UE may be granted an answer and a block for one subframe, or several answers.
Then the process holds the last grant, and the blocks of the others cannot be repeated.

What stands for a UE when an uplink trigger comes is told by the run: the answers it got since the
last one, which is also what the map of reserved blocks knows. An answer to a UE that is not
configured is not stored, since there is no process for it, so the answers that a process may hold
are those given while the UE was configured (`awaited`).

The process of a subframe is the present one before the trigger and the one before the present
afterwards, as the trigger turns the buffer. All statements about what it holds are made of the
timetable, where nothing has to be counted modulo eight, and carried over by `Timetable.Describes`.

* `awaited`: the answers a configured UE has got since the last uplink trigger;
* `Run.filled`: an uplink trigger grants one block at most to a UE, what its process holds
  afterwards, and that the outcome seven triggers later concerns exactly that.
-/

namespace LteMac

variable {Record : Type} {policy : Policy Record} {config : SchedulerConfig}
  {es : List (Event Record)} {e : Event Record} {s : SchedulerState Record} {r : Rnti}

/-! ## Awaited answers

An answer is awaited from the event that tells it until the next uplink trigger. The last one that a
UE awaits is the block of its present subframe, and a UE that is not configured awaits none.
-/

/-- The answers a configured UE awaits to send on after an event, of those before it and its own. -/
def Event.awaited (e : Event Record) (r : Rnti) (answers : List AccessGrant) : List AccessGrant :=
  match e.request with
  | .uplinkTrigger .. => []
  | .releaseUe r' => if r' = r then [] else answers
  | .downlinkTrigger _ =>
    if e.before.ues.contains r then answers ++ e.answers.filter (·.rnti = r) else answers
  | _ => answers

/-- The answers a UE has got since the last uplink trigger, while it was configured. -/
def awaited (es : List (Event Record)) (r : Rnti) : List AccessGrant :=
  es.foldl (fun answers e => e.awaited r answers) []

/-- Answers are awaited event by event. -/
theorem awaited_concat (es : List (Event Record)) (e : Event Record) (r : Rnti) :
    awaited (es ++ [e]) r = e.awaited r (awaited es r) := by
  simp [awaited]

/-- The last answer that is awaited is the block of the present subframe. -/
theorem timetable_of_awaited {a : AccessGrant} (h : (awaited es r).getLast? = some a) :
    ∃ n, timetable es r 0 = some (.first n (Access.uplinkGrant a)) := by
  induction es using List.reverseRecOn generalizing a with
  | nil => cases h
  | append_singleton es e ih =>
    rw [timetable_concat]
    rw [awaited_concat] at h
    unfold Event.awaited at h
    unfold Event.timetable
    generalize e.request = q at h ⊢
    cases q with
    | uplinkTrigger => cases h
    | releaseUe r' =>
      dsimp only at h ⊢
      split at h
      · cases h
      next hne =>
        rw [if_neg hne]
        exact ih h
    | downlinkTrigger feedback =>
      dsimp only at h ⊢
      split at h
      next hknown =>
        rw [if_pos hknown, Timetable.foldl_place, List.getLast?_map, List.getLast?_map]
        rw [List.getLast?_append] at h
        -- The answers of this trigger take the place of former ones.
        cases hlast : (e.answers.filter (·.rnti = r)).getLast? with
        | none =>
          rw [hlast] at h
          exact ih h
        | some a' =>
          rw [hlast] at h
          obtain rfl : a' = a := Option.some.inj h
          exact ⟨es.length, Timetable.place_zero⟩
      next hknown =>
        rw [if_neg hknown]
        exact ih h
    | _ => exact ih h

/-- A UE that is not configured awaits nothing. -/
theorem Run.awaited_of_unknown (hrun : Run policy config es s)
    (henabled : config.harqEnabled = true) (hnew : r ∉ s.ues) : awaited es r = [] := by
  have hunknown : r ∉ s.uplink.ues := fun h =>
    hnew ((hrun.reachable.consistent.uplink.records r).1 h)
  have htells := (hrun.tells henabled).2 r
  rw [Table.not_mem_iff.1 hunknown] at htells
  cases hlast : (awaited es r).getLast? with
  | none => exact List.getLast?_eq_none_iff.1 hlast
  | some a =>
    obtain ⟨n, hn⟩ := timetable_of_awaited hlast
    rw [show timetable es r = .empty from htells] at hn
    cases hn

/-- The awaited answers are the last ones of those that stand. -/
theorem Run.awaited_suffix (hrun : Run policy config es s) (henabled : config.harqEnabled = true)
    (r : Rnti) : awaited es r <:+ (standing es).filter (·.rnti = r) := by
  refine hrun.invariant (P := fun es _ => awaited es r <:+ (standing es).filter (·.rnti = r))
    List.suffix_rfl ?_
  intro es s s' q said hrun ih hq
  rw [awaited_concat]
  cases SchedulerState.effect_of_step hq with
  | cell | added =>
    simpa [standing_concat, Event.awaited, Event.standing, Event.answers, Indication.answers]
      using ih
  | heard => simpa [standing_concat, Event.awaited, Event.standing, Event.answers] using ih
  | @released r' =>
    rw [standing_concat]
    change (if r' = r then [] else awaited es r) <:+
      ((standing es).filter (·.rnti ≠ r')).filter (·.rnti = r)
    split
    · exact List.nil_suffix
    next hne =>
      have hkept : ∀ a ∈ standing es, (decide (a.rnti = r) && decide (a.rnti ≠ r')) =
          decide (a.rnti = r) := by grind
      rwa [List.filter_filter, List.filter_congr hkept]
  | @downlink feedback =>
    rw [standing_concat]
    dsimp only [Event.awaited, Event.standing]
    rw [List.filter_append]
    split
    · obtain ⟨earlier, hearlier⟩ := ih
      exact ⟨earlier, by rw [← hearlier, List.append_assoc]⟩
    -- An answer to somebody who is not configured is not awaited, and nothing of that UE is.
    next hknown =>
      rw [hrun.awaited_of_unknown henabled fun h => hknown (Std.ExtTreeMap.mem_iff_contains.1 h)]
      exact List.nil_suffix
  | uplink => exact List.nil_suffix
  | quiet hquiet _ hsaid =>
    rw [Accounts.standing_of_quiet hquiet hsaid]
    cases q with
    | uplinkTrigger | releaseUe | downlinkTrigger => cases hquiet
    | _ => exact ih

/-! ## The cycle

The processes of a UE form a cycle, through which every uplink trigger moves them on by one. Acting
upon outcomes and storing grants does not, so the process of the present subframe is the next one
behind after the trigger.
-/

/-- To act upon an outcome changes the processes of a UE, and does not move them on. -/
theorem UplinkRetry.Round.part_handle {α : Type} {part : UplinkUe → α}
    (hpart : ∀ (u : UplinkUe) (harq : UplinkEntity), harq.current = u.harq.current →
      part { u with harq } = part u)
    (round : Round) (o : UplinkOutcome) (r : Rnti) :
    (round.handle o).ues[r]?.map part = round.ues[r]?.map part := by
  -- The processes of a UE change, but not its place in their cycle, and only that counts here.
  have hset : ∀ {u : UplinkUe} {harq : UplinkEntity}, round.ues[o.rnti]? = some u →
      harq.current = u.harq.current →
      (round.setEntity o.rnti u harq).ues[r]?.map part = round.ues[r]?.map part := by
    intro u harq hu hcurrent
    rw [setEntity, Table.getElem?_insert]
    split
    next hr =>
      rw [hr, hu]
      exact congrArg some (hpart u harq hcurrent)
    · rfl
  unfold handle
  split
  · rfl
  · rfl
  next u hu _ => exact hset hu rfl
  next u hu _ =>
    dsimp only
    split
    · exact hset hu u.harq.current_retry
    · exact hset hu u.harq.current_retry
    · unfold send
      split
      · exact hset hu u.harq.current_retry
      · exact hset hu u.harq.current_retry

/-- Storing blocks does not move an entity on. -/
theorem UplinkEntity.current_foldl_store (gs : List UplinkGrant) (h : UplinkEntity) :
    (gs.foldl .store h).current = h.current := by
  induction gs generalizing h with
  | nil => rfl
  | cons g gs ih => exact ih (h.store g)

/-- A verdict that moves no block leaves the present subframe alone. -/
theorem Timetable.judge_zero_of_unmoved {t : Timetable} {h : UplinkEntity}
    (hdescribes : t.Describes h) {verdict : Option Bool}
    (hunmoved : verdict = some false → ∀ g, h.retry.1 ≠ .again g) (n : Nat) (granted : Bool) :
    t.judge n verdict granted 0 = t 0 := by
  rcases t.judge_cases n verdict granted with heq | heq | ⟨hverdict, b, hdue, hleft, -⟩
  · rw [heq]
  · rw [heq, clear_of_ne due_ne_zero.symm]
  · refine absurd ?_ (hunmoved hverdict b.grant)
    rw [hdescribes.retry_of_some hdue, if_neg (Nat.not_le_of_lt hleft)]

namespace UplinkTrigger

variable (s : SchedulerState Record) (grid : Grid) (time : Subframe)
  (outcomes : List UplinkOutcome)

/-- So the stage of retransmissions leaves alone whatever else there is of a UE, apart from its wish
to send. -/
theorem part_retries {α : Type} {part : UplinkUe → α}
    (hpart : ∀ (u : UplinkUe) (harq : UplinkEntity), harq.current = u.harq.current →
      part { u with harq } = part u)
    (hnoted : ∀ (bytes : Nat) (u : UplinkUe), part (noteRequest bytes u) = part u) (r : Rnti) :
    (retries s grid outcomes).ues[r]?.map part = s.uplink.ues[r]?.map part := by
  unfold retries retransmit
  have hstart : (s.uplink.ues.map fun _ u => noteRequest s.config.requestBytes u)[r]?.map part =
      s.uplink.ues[r]?.map part := by
    rw [Std.ExtTreeMap.getElem?_map, Option.map_map]
    exact congrArg (Option.map · _) (funext fun u => hnoted _ u)
  split
  · induction outcomes using List.reverseRecOn with
    | nil => exact hstart
    | append_singleton rest o ih =>
      rw [List.foldl_append]
      exact (UplinkRetry.Round.part_handle hpart ..).trans ih
  · exact hstart

/-- Retransmissions do not move the processes on. -/
theorem current_retries (r : Rnti) : (retries s grid outcomes).ues[r]?.map (·.harq.current) =
    s.uplink.ues[r]?.map (·.harq.current) := by
  refine part_retries s grid outcomes (fun _ _ hcurrent => hcurrent) (fun _ u => ?_) r
  unfold noteRequest
  split <;> rfl

/-- A trigger moves every entity on to the next process. -/
theorem current_decide (henabled : s.config.harqEnabled = true) {u : UplinkUe}
    (hu : s.uplink.ues[r]? = some u) :
    ∃ u', (decide s grid time outcomes).1.uplink.ues[r]? = some u' ∧
      u'.harq.current = (u.harq.current + 1) % uplinkProcesses := by
  have hretries := current_retries s grid outcomes r
  have hstored := (stored_fresh s grid outcomes henabled).harq r
  rw [hu, Option.map_some, Option.map_eq_some_iff] at hretries
  obtain ⟨u₁, hu₁, hcurrent₁⟩ := hretries
  rw [hu₁, Option.map_some, Option.map_eq_some_iff] at hstored
  obtain ⟨u₂, hu₂, hharq₂⟩ := hstored
  refine ⟨_, by rw [ues_decide, Std.ExtTreeMap.getElem?_map, hu₂, Option.map_some], ?_⟩
  change (if s.config.harqEnabled then u₂.harq.advance else u₂.harq).current = _
  rw [if_pos henabled, hharq₂]
  change (UplinkEntity.current (List.foldl _ _ _) + 1) % _ = _
  rw [UplinkEntity.current_foldl_store, hcurrent₁]

/-- One block at most is granted to a UE. -/
theorem grants_le_one (hsound : UplinkTable.Sound s.uplink.ues) (r : Rnti) :
    ((event s grid time outcomes).grants.filter (·.rnti = r)).length ≤ 1 := by
  have hnodup := (handout_decision s grid outcomes hsound).nodup
  have hcount := List.nodup_iff_count_le_one.1 hnodup r
  rw [List.count_eq_countP, List.countP_map, List.countP_eq_length_filter] at hcount
  rw [grants_event]
  exact hcount

/-- If nothing is granted to a UE, and no failed block of it is moved, its present subframe holds
what it held. -/
theorem timetable_of_unmoved (n : Nat) (henabled : s.config.harqEnabled = true)
    (hsound : UplinkTable.Sound s.uplink.ues) {t : Timetable} {u : UplinkUe}
    (hu : s.uplink.ues[r]? = some u) (hdescribes : t.Describes u.harq)
    (hnone : ∀ d ∈ (event s grid time outcomes).grants, d.rnti ≠ r)
    (hunmoved : (event s grid time outcomes).verdict? r = some false →
      ∀ g, u.harq.retry.1 ≠ .again g) :
    (event s grid time outcomes).timetable n r t 1 = t 0 := by
  have htells : t.Tells s.uplink.ues[r]? := by rwa [hu]
  have hfresh : (fresh s grid outcomes).sent.filter (·.rnti = r) = [] := by
    refine List.filter_eq_nil_iff.2 fun g hg hr => hnone g ?_ (of_decide_eq_true hr)
    rw [grants_event]
    exact List.mem_append_right _ hg
  rw [timetable_event s grid time outcomes n
    (judged_retries s grid time outcomes henabled hsound htells)
    (stored_fresh s grid outcomes henabled), hfresh]
  exact (Timetable.tick_succ _ 0).trans (Timetable.judge_zero_of_unmoved hdescribes hunmoved n _)

end UplinkTrigger

/-! ## What an uplink trigger leaves

All that a trigger makes of the present subframe of a UE: its own grant takes the place of what was
there, and an answer stays only if nothing takes its place. A run that shows both is at the end.
-/

/-- A block that the timetable has in the subframe before the present one is on the process before
the present one. -/
theorem Timetable.Describes.process_one {t : Timetable} {h : UplinkEntity}
    (hdescribes : t.Describes h) {id : Nat} (hcurrent : h.current = (id + 1) % uplinkProcesses) :
    h.process id = (t 1).elim .free (·.process) := by
  rw [← hdescribes.process 1, UplinkEntity.process, UplinkEntity.process]
  congr 2
  have hone : ((1 : Fin uplinkProcesses) : Nat) = 1 := rfl
  rw [hone, hcurrent]
  simp only [uplinkProcesses] at *
  omega

/-- What event `n`, an uplink trigger, makes of the present subframe of the UE `r`, of which the
uplink kept `u` before it and keeps `u'` after it. -/
structure Filled (es : List (Event Record)) (n : Nat) (e : Event Record) (r : Rnti)
    (u u' : UplinkUe) : Prop where
  /-- The process of the trigger is that of the subframe before the next one. -/
  moves : u'.harq.current = (u.harq.current + 1) % uplinkProcesses
  /-- A retransmission and new data exclude each other. -/
  one : (e.grants.filter (·.rnti = r)).length ≤ 1
  /-- With the answers that stand, there is more than one block if the trigger grants another one,
  or if several answers stand. -/
  single :
    ((standing (es.take n)).filter (·.rnti = r)).length +
        (e.grants.filter (·.rnti = r)).length ≤ 1 ↔
      (standing (es.take n)).filter (·.rnti = r) = [] ∨
        ((standing (es.take n)).filter (·.rnti = r)).length = 1 ∧ ∀ d ∈ e.grants, d.rnti ≠ r
  /-- The process of the trigger holds the block that is granted. -/
  granted : ∀ d ∈ e.grants, d.rnti = r →
    (u'.harq.process u.harq.current).grant = some { d with ndi := 1 }
  /-- The awaited answers are the last ones of those that stand. -/
  awaits : awaited (es.take n) r <:+ (standing (es.take n)).filter (·.rnti = r)
  /-- If none is granted and no failed block is moved, the process holds the last awaited answer. -/
  answered : (∀ d ∈ e.grants, d.rnti ≠ r) →
    (e.verdict? r = some false → ∀ g, u.harq.retry.1 ≠ .again g) →
    ∀ a, (awaited (es.take n) r).getLast? = some a →
      (u'.harq.process u.harq.current).grant = some (Access.uplinkGrant a)
  /-- The outcome seven triggers later concerns exactly what the process holds. -/
  reported : ∀ {j : Nat} {e' : Event Record} {v : UplinkUe}, Due es r n j → es[j]? = some e' →
    e'.before.uplink.ues[r]? = some v →
    v.harq.process v.harq.reported = u'.harq.process u.harq.current

/-- Along a run of a cell that retransmits, an uplink trigger grants one block at most to a
configured UE, and its process holds that block; the answers to random accesses are not looked at,
and the last one is on the process only if no block takes its place. The outcome that comes seven
uplink triggers later is taken for that of the block which the process held then, and of no other.
-/
theorem Run.filled {n : Nat} (hrun : Run policy config es s) (henabled : config.harqEnabled = true)
    (he : es[n]? = some e) (hup : e.isUplink = true) (hue : r ∈ e.before.ues) :
    ∃ u u', e.before.uplink.ues[r]? = some u ∧ e.after.uplink.ues[r]? = some u' ∧
      Filled es n e r u u' := by
  obtain ⟨hbefore, hstep⟩ := hrun.before_of_getElem? he
  have hafter : Run policy config (es.take (n + 1)) e.after := by
    rw [List.take_add_one, he]
    exact hbefore.step hstep
  have hslot := timetable_take_succ he r
  obtain ⟨u, hu⟩ := Table.exists_of_mem ((hbefore.reachable.consistent.uplink.records r).2 hue)
  obtain ⟨s', grid, time, outcomes, -, hconfig, hsound, htells, rfl⟩ :=
    hrun.event_of_uplink henabled he hup
  obtain ⟨u', hu', hmoves⟩ :=
    UplinkTrigger.current_decide s' grid time outcomes hconfig hu
  -- What the process of the trigger holds is what the timetable has one subframe ago.
  have hprocess : u'.harq.process u.harq.current =
      (timetable (es.take (n + 1)) r 1).elim .free (·.process) := by
    have hdescribes := (hafter.tells henabled).2 r
    rw [show (UplinkTrigger.event s' grid time outcomes).after.uplink.ues[r]? = some u' from hu']
      at hdescribes
    exact Timetable.Describes.process_one hdescribes hmoves
  have hone := UplinkTrigger.grants_le_one s' grid time outcomes hsound r
  refine ⟨u, u', hu, hu', ?_⟩
  exact
    { moves := hmoves
      one := hone
      single := by
        have hnone : ∀ gs : List UplinkGrant,
            (∀ d ∈ gs, d.rnti ≠ r) ↔ (gs.filter (·.rnti = r)).length = 0 := by
          simp [List.filter_eq_nil_iff]
        rw [hnone, ← List.length_eq_zero_iff]
        omega
      granted := fun d hd hname => by
        rw [hprocess, hslot]
        rcases UplinkTrigger.timetable_of_grant n hconfig hsound (htells r) hd hname with
          ⟨hnew, heq⟩ | ⟨-, b, hdue, rfl, heq⟩
        · rw [heq, ← hnew]
          rfl
        · have hnew := ((orderly_timetable (es.take n) r).proper Timetable.due b hdue).isNew
          rw [heq, Transit.again, ← hnew]
          rfl
      awaits := hbefore.awaited_suffix henabled r
      answered := fun hnone hunmoved a ha => by
        obtain ⟨m, hm⟩ := timetable_of_awaited ha
        have hdescribes := htells r
        rw [show s'.uplink.ues[r]? = some u from hu] at hdescribes
        rw [hprocess, hslot,
          UplinkTrigger.timetable_of_unmoved s' grid time outcomes n hconfig hsound hu hdescribes
            hnone hunmoved, hm]
        rfl
      reported := fun {j e' v} hdue he' hv => by
        have hdescribes := ((hrun.before_of_getElem? he').1.tells henabled).2 r
        rw [hv] at hdescribes
        rw [hprocess, ← hdue.timetable_due]
        exact Timetable.Describes.reported hdescribes }

/-- UE 1 has something to send, and event 5 answers its random access; event 6 is the next uplink
trigger, and event 13 is told that the block failed. -/
def answeredBesideData : List Request :=
  [.connect true true, .configureCell 15 15, .configureUe 1 .singleAntenna,
    .uplinkControls [(1, .bufferStatus [1, 0, 0, 0])], .randomAccess [⟨1, 5, 56⟩],
    .downlinkTrigger [], .uplinkTrigger ⟨0⟩ []] ++ silentTriggers ++ [failedTrigger]

/-- What event 6 grants: the blocks that the answer left. -/
def besideAnswer : UplinkGrant := ⟨1, 3, 12, 32, 0, 1, 1, false, false⟩

/-- The run of these requests. -/
theorem exists_answeredBesideData :
    ∃ (es : List (Event Throughput)) (s : SchedulerState Throughput) (e e' : Event Throughput),
      Run .tdBet .default es s ∧ es[6]? = some e ∧ e.isUplink = true ∧ 1 ∈ e.before.ues ∧
      ((standing (es.take 6)).filter (·.rnti = 1)).map (·.blocks) = [[0, 1, 2]] ∧
      e.grants = [besideAnswer] ∧ Due es 1 6 13 ∧ es[13]? = some e' ∧ 1 ∈ e'.before.ues ∧
      e'.grants = [{ besideAnswer with ndi := 0 }] := by
  obtain ⟨es, s, hrun, hcheck⟩ := Run.of_replay .tdBet .default answeredBesideData
    (fun es =>
      es[6]?.any (fun e => e.isUplink && e.before.ues.contains 1 && e.grants == [besideAnswer]) &&
      ((standing (es.take 6)).filter (·.rnti = 1)).map (·.blocks) == [[0, 1, 2]] &&
      ((es.take 13).drop 7).countP (·.isUplink) == 6 &&
      ((es.take 13).drop 7).all (fun e => !e.releases 1) &&
      es[13]?.any (fun e =>
        e.before.ues.contains 1 && e.grants == [{ besideAnswer with ndi := 0 }]))
    (by decide +kernel)
  simp only [Bool.and_eq_true, beq_iff_eq, Option.any_eq_true, List.all_eq_true,
    Bool.not_eq_true'] at hcheck
  obtain ⟨⟨⟨⟨⟨e, he, ⟨hup, hue⟩, hgrants⟩, hstanding⟩, hseventh⟩, hkept⟩, e', he', hue',
    hgrants'⟩ := hcheck
  exact ⟨es, s, e, e', hrun, he, hup, Std.ExtTreeMap.mem_iff_contains.2 hue, hstanding, hgrants,
    ⟨by rw [hseventh]; rfl, hkept⟩, he', Std.ExtTreeMap.mem_iff_contains.2 hue', hgrants'⟩

/-- A UE is granted two blocks for one uplink subframe: it is answered with the first three blocks,
and as it has something to send, it is also granted the others. -/
theorem two_blocks_in_one_subframe :
    ∃ (es : List (Event Throughput)) (s : SchedulerState Throughput) (e : Event Throughput),
      Run .tdBet .default es s ∧ SchedulerConfig.default.harqEnabled = true ∧ es[6]? = some e ∧
      e.isUplink = true ∧ 1 ∈ e.before.ues ∧
      ¬((standing (es.take 6)).filter (·.rnti = 1)).length +
        (e.grants.filter (·.rnti = 1)).length ≤ 1 := by
  obtain ⟨es, s, e, -, hrun, he, hup, hue, hstanding, hgrants, -⟩ := exists_answeredBesideData
  have hone := congrArg List.length hstanding
  rw [List.length_map] at hone
  refine ⟨es, s, e, hrun, rfl, he, hup, hue, ?_⟩
  rw [hone, hgrants]
  decide

/-- What is repeated after seven uplink triggers is the new block, not that of the answer. -/
theorem filled_besideAnswer :
    ∃ (es : List (Event Throughput)) (s : SchedulerState Throughput) (e e' : Event Throughput)
      (u u' v : UplinkUe),
      Run .tdBet .default es s ∧ SchedulerConfig.default.harqEnabled = true ∧ es[6]? = some e ∧
      e.isUplink = true ∧ 1 ∈ e.before.ues ∧ Filled es 6 e 1 u u' ∧ e.grants = [besideAnswer] ∧
      Due es 1 6 13 ∧ es[13]? = some e' ∧ e'.before.uplink.ues[(1 : Rnti)]? = some v ∧
      (v.harq.process v.harq.reported).grant = some besideAnswer ∧
      e'.grants = [{ besideAnswer with ndi := 0 }] := by
  obtain ⟨es, s, e, e', hrun, he, hup, hue, -, hgrants, hdue, he', hue', hgrants'⟩ :=
    exists_answeredBesideData
  obtain ⟨u, u', -, -, hfilled⟩ := hrun.filled rfl he hup hue
  have hconsistent := (hrun.before_of_getElem? he').1.reachable.consistent
  obtain ⟨v, hv⟩ := Table.exists_of_mem ((hconsistent.uplink.records 1).2 hue')
  refine ⟨es, s, e, e', u, u', v, hrun, rfl, he, hup, hue, hfilled, hgrants, hdue, he', hv, ?_,
    hgrants'⟩
  rw [hfilled.reported hdue he' hv]
  exact hfilled.granted besideAnswer (by simp [hgrants]) rfl

end LteMac
