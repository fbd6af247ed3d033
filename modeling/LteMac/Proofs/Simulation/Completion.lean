import LteMac.Proofs.Scenario.Accepted
import LteMac.Proofs.Simulation.Turns

/-!
# Runs come to their end

A cell of a scenario that was accepted is ready (`Cell.Ready`) from the beginning: its scheduler is
in service for its UEs, and what is on its way is feedback of these UEs. In every subframe it only
reports on its UEs, so no request is refused; the decisions name nobody else, so it is ready for the
next subframe; and in the end all its UEs can be released.

Two facts about the scheduler carry this. While it is in service, whatever is reported of UEs it
knows is accepted; and whatever it decides concerns UEs it knows, on processes that exist. The first
keeps a turn from failing, and the second makes the feedback of the turn, which is about its
decisions, fit for the turn in which it arrives. So a cell and its scheduler hold each other up, and
the invariant is about both.

Nothing is assumed of the arithmetic of averages or qualities, whose values decide who is served but
never whether a request is accepted.

* `Cell.Named.reports`: what a cell reports;
* `Cell.Ready.exists_turn`, `Cell.Ready.next`: a turn can be taken, and leaves the cell ready;
* `Scenario.Accepted.completes`: the run of a carrier.
-/

namespace LteMac

variable {Record : Type} {policy : Policy Record} {config : SchedulerConfig} {c : Cell Record}

/-! ## Reports

Whatever a cell tells its scheduler in between the triggers is about its own players, and about
channels that they have.
-/

namespace Cell

/-- Every UE of the cell is listed under its own name. -/
def Named (c : Cell Record) : Prop :=
  ∀ (r : Rnti) (p : Player), c.players[r]? = some p → p.profile.rnti = r

/-- A request only reports on UEs of the cell, and on what they receive on their channel. -/
structure Reports (c : Cell Record) (q : Request) : Prop where
  /-- It is a request that a cell in service accepts. -/
  routine : q.Routine playedLcid
  /-- It is no trigger. -/
  report : q.isTrigger = false
  /-- It names UEs of the cell only. -/
  known : ∀ r ∈ q.rntis, r ∈ c.players

/-- A player of the cell is found under its own name. -/
theorem Named.mem_of_value (h : c.Named) {p : Player} (hp : p ∈ c.players.values) :
    p.profile.rnti ∈ c.players := by
  obtain ⟨r, hr⟩ := Table.mem_values.1 hp
  rw [h r p hr]
  exact Table.mem_of_getElem? hr

/-- A request that is only made if there is something to say. -/
theorem eq_of_mem_ifAny {α : Type} {request : List α → Request} {list : List α} {q : Request}
    (h : q ∈ ifAny request list) : q = request list := by
  rw [ifAny] at h
  split at h
  · cases h
  · exact List.mem_singleton.1 h

/-- What arrives for the players changes none of them for another. -/
theorem mem_arrive {r : Rnti} : r ∈ c.arrive.players ↔ r ∈ c.players := Std.ExtTreeMap.mem_map

/-- They are still listed under their own names. -/
theorem Named.arrive (h : c.Named) : c.arrive.Named := by
  intro r p hp
  simp only [Cell.arrive, Std.ExtTreeMap.getElem?_map, Option.map_eq_some_iff] at hp
  obtain ⟨p, hp, rfl⟩ := hp
  exact h r p hp

/-- Preambles are not about UEs yet. -/
theorem reports_accessRequests : ∀ q ∈ c.accessRequests, c.Reports q := by
  intro q hq
  rw [accessRequests] at hq
  split at hq
  · obtain rfl := List.mem_singleton.1 hq
    refine ⟨trivial, rfl, fun r hr => ?_⟩
    rw [Request.rntis, List.map_map] at hr
    obtain ⟨⟨r', i⟩, hr', rfl⟩ := List.mem_map.1 hr
    obtain ⟨_, heq⟩ := List.mem_zipIdx' hr'
    exact Std.ExtTreeMap.mem_keys.1 (heq ▸ List.getElem_mem _)
  · cases hq

/-- Queues are those of players, on the channel on which they receive. -/
theorem reports_queueRequests (h : c.Named) : ∀ q ∈ c.queueRequests, c.Reports q := by
  intro q hq
  obtain ⟨p, hp, hq⟩ := List.mem_filterMap.1 hq
  rw [Player.queueReport?] at hq
  split at hq
  · cases hq
  · obtain rfl := Option.some.inj hq
    refine ⟨rfl, rfl, fun r hr => ?_⟩
    obtain rfl := List.mem_singleton.1 hr
    exact h.mem_of_value hp

/-- Scheduling requests come from players. -/
theorem reports_asking : ∀ q ∈ ifAny .schedulingRequests c.asking, c.Reports q := by
  intro q hq
  obtain rfl := eq_of_mem_ifAny hq
  refine ⟨trivial, rfl, fun r hr => ?_⟩
  rw [Request.rntis, asking] at hr
  split at hr
  · cases hr
  · exact Std.ExtTreeMap.mem_of_mem_filter (Std.ExtTreeMap.mem_keys.1 hr)

/-- Buffer sizes are those of players. -/
theorem reports_buffers (h : c.Named) : ∀ q ∈ ifAny .uplinkControls c.buffers, c.Reports q := by
  intro q hq
  obtain rfl := eq_of_mem_ifAny hq
  refine ⟨trivial, rfl, fun r hr => ?_⟩
  rw [Request.rntis, buffers] at hr
  split at hr
  · obtain ⟨_, hcontrol, rfl⟩ := List.mem_map.1 hr
    obtain ⟨p, hp, rfl⟩ := List.mem_map.1 hcontrol
    exact h.mem_of_value (List.mem_filter.1 hp).1
  · cases hr

/-- Qualities are those of players. -/
theorem reports_channelRequests (h : c.Named) : ∀ q ∈ c.channelRequests, c.Reports q := by
  intro q hq
  rw [channelRequests] at hq
  split at hq
  · rcases List.mem_append.1 hq with hq | hq
    · obtain rfl := eq_of_mem_ifAny hq
      refine ⟨trivial, rfl, fun r hr => ?_⟩
      obtain ⟨_, hreport, rfl⟩ := List.mem_map.1 hr
      obtain ⟨p, hp, rfl⟩ := List.mem_map.1 hreport
      exact h.mem_of_value hp
    · obtain ⟨p, hp, rfl⟩ := List.mem_map.1 hq
      refine ⟨rfl, rfl, fun r hr => ?_⟩
      obtain rfl := List.mem_singleton.1 hr
      exact h.mem_of_value hp
  · cases hq

/-- What a cell reports is about its UEs. -/
theorem Named.reports (h : c.Named) : ∀ q ∈ c.reports, c.Reports q := by
  have harrived : ∀ {q : Request}, c.arrive.Reports q → c.Reports q := fun hq =>
    { hq with known := fun r hr => mem_arrive.1 (hq.known r hr) }
  intro q hq
  simp only [Cell.reports, List.mem_append] at hq
  rcases hq with (((((hq | hq) | hq) | hq) | hq) | hq) | hq
  · exact reports_accessRequests q hq
  · exact harrived (reports_queueRequests h.arrive q hq)
  · exact reports_asking q hq
  · exact harrived (reports_buffers h.arrive q hq)
  · exact reports_channelRequests h q hq
  · obtain ⟨past, -, rfl⟩ := List.mem_map.1 hq
    exact ⟨trivial, rfl, by simp [Request.rntis]⟩
  · rw [noiseRequests] at hq
    split at hq
    · obtain rfl := List.mem_singleton.1 hq
      exact ⟨trivial, rfl, by simp [Request.rntis]⟩
    · cases hq

end Cell

/-! ## Between two subframes -/

/-- A cell between two subframes: its scheduler is in service for its UEs, and what is on its way
comes from them. -/
structure Cell.Ready (policy : Policy Record) (config : SchedulerConfig) (c : Cell Record) :
    Prop where
  /-- The scheduler is in service for the UEs. -/
  serves : c.scheduler.Serves policy config (· ∈ c.players) playedLcid
  /-- Every UE goes by its own name. -/
  named : c.Named
  /-- Feedback on its way is about processes of the UEs. -/
  feedback : ∀ f ∈ c.feedback, f.2.rnti ∈ c.players ∧ f.2.process < harqProcesses
  /-- Outcomes on their way are about the UEs. -/
  outcomes : ∀ o ∈ c.outcomes, o.2.rnti ∈ c.players

/-- The decisions of a turn name only UEs with a property. -/
structure Turn.Names (known : Rnti → Prop) (t : Turn Record) : Prop where
  /-- Blocks are for such UEs. -/
  blocks : ∀ b ∈ t.downlink.blocks, known b.rnti
  /-- Answers go to such UEs. -/
  answers : ∀ a ∈ t.downlink.answers, known a.rnti
  /-- Grants go to such UEs. -/
  grants : ∀ g ∈ t.uplink.grants, known g.rnti

namespace Cell.Ready

/-- The feedback that is due reports on UEs of the cell. -/
theorem routine_feedback (h : c.Ready policy config) :
    (Request.downlinkTrigger (dueAt c.tick c.feedback)).Routine playedLcid ∧
      ∀ r ∈ (Request.downlinkTrigger (dueAt c.tick c.feedback)).rntis, r ∈ c.players := by
  refine ⟨fun f hf => ?_, List.forall_mem_map.2 fun f hf => ?_⟩
  · obtain ⟨due, -, hf⟩ := mem_dueAt.1 hf
    exact (h.feedback _ hf).2
  · obtain ⟨due, -, hf⟩ := mem_dueAt.1 hf
    exact (h.feedback _ hf).1

/-- The outcomes that are due report on UEs of the cell. -/
theorem known_outcomes (h : c.Ready policy config) :
    ∀ r ∈ (Request.uplinkTrigger c.time (dueAt c.tick c.outcomes)).rntis, r ∈ c.players := by
  refine List.forall_mem_map.2 fun o ho => ?_
  obtain ⟨due, -, ho⟩ := mem_dueAt.1 ho
  exact h.outcomes _ ho

/-- A cell that is ready can take a turn. -/
theorem exists_turn (h : c.Ready policy config) :
    ∃ t : Turn Record, t.cell = c ∧ t.Taken policy := by
  obtain ⟨hroutine, hknown⟩ := h.routine_feedback
  obtain ⟨es, s₁, hes, hs₁⟩ := h.serves.exists_replay fun q hq =>
    ⟨(h.named.reports q hq).routine, (h.named.reports q hq).known⟩
  obtain ⟨s₂, said, hdownlink, hs₂⟩ := hs₁.exists_step hroutine hknown
  obtain ⟨s₃, said', huplink, -⟩ := hs₂.exists_step
    (q := .uplinkTrigger c.time (dueAt c.tick c.outcomes)) trivial h.known_outcomes
  exact ⟨⟨c, es, ⟨s₁, _, s₂, said⟩, ⟨s₂, _, s₃, said'⟩⟩, rfl, hes, rfl, hdownlink, rfl, rfl,
    huplink⟩

/-- The scheduler is in service all the time. -/
theorem serves_before {t : Turn Record} (h : t.cell.Ready policy config) (ht : t.Taken policy) :
    t.downlink.before.Serves policy config (· ∈ t.cell.players) playedLcid ∧
      t.uplink.before.Serves policy config (· ∈ t.cell.players) playedLcid ∧
      t.uplink.after.Serves policy config (· ∈ t.cell.players) playedLcid := by
  have hinformed := SchedulerState.replay_keeps
    (P := fun s => s.Serves policy config (· ∈ t.cell.players) playedLcid)
    (fun q hq s s' said hstep hs =>
      hs.of_step (h.named.reports q hq).routine (h.named.reports q hq).known hstep)
    ht.reports h.serves
  obtain ⟨hroutine, hknown⟩ := h.routine_feedback
  have hbetween : t.uplink.before.Serves policy config (· ∈ t.cell.players) playedLcid :=
    ht.between ▸ hinformed.of_step (ht.feedback ▸ hroutine) (ht.feedback ▸ hknown) ht.downlink
  refine ⟨hinformed, hbetween, hbetween.of_step ?_ ?_ ht.uplink⟩
  · rw [ht.outcomes]
    trivial
  · rw [ht.outcomes]
    exact h.known_outcomes

/-- The decisions of a turn name UEs of the cell, downlink blocks on processes that exist. -/
theorem names {t : Turn Record} (h : t.cell.Ready policy config) (ht : t.Taken policy) :
    t.Names (· ∈ t.cell.players) ∧ ∀ b ∈ t.downlink.blocks, b.grant.process < harqProcesses := by
  obtain ⟨hinformed, hbetween, -⟩ := h.serves_before ht
  obtain ⟨hdata, haccess⟩ := hinformed.names_downlink (ht.feedback ▸ ht.downlink)
  exact ⟨⟨fun b hb => (hdata b hb).1, haccess, hbetween.names_uplink (ht.outcomes ▸ ht.uplink)⟩,
    fun b hb => (hdata b hb).2⟩

/-- What a turn leaves on its way. -/
theorem leaves {t : Turn Record} (h : t.cell.Ready policy config) (ht : t.Taken policy) :
    t.Leaves t.next :=
  ht.leaves (h.names ht).1.blocks (h.names ht).1.grants

/-- A turn leaves the cell ready. Its scheduler is still in service, and the feedback that the turn
adds is about blocks which went to players. -/
theorem next {t : Turn Record} (h : t.cell.Ready policy config) (ht : t.Taken policy) :
    t.next.Ready policy config := by
  obtain ⟨hnames, hprocess⟩ := h.names ht
  have hleaves := h.leaves ht
  have hplayers : (· ∈ t.next.players) = (· ∈ t.cell.players) :=
    funext fun r => propext hleaves.mem_iff
  refine ⟨?_, ?_, ?_, ?_⟩
  -- The scheduler is in service after the last request of the turn.
  · rw [hleaves.scheduler, hplayers]
    exact (h.serves_before ht).2.2
  · intro r p hp
    have hprofile := hleaves.profiles r
    rw [hp, Option.map_some, eq_comm, Option.map_eq_some_iff] at hprofile
    obtain ⟨p', hp', hprofile⟩ := hprofile
    rw [← hprofile]
    exact h.named r p' hp'
  · obtain ⟨fs, hfs, hfeedback⟩ := hleaves.feedback
    rw [hfeedback]
    refine List.forall_mem_append.2 ⟨fun f hf => ?_, List.forall_mem_map.2 fun f hf => ?_⟩
    · rw [hleaves.mem_iff]
      exact h.feedback f (mem_dueAfter.1 hf).1
    · obtain ⟨b, hb, p, rfl⟩ := exists_left_of_mem hfs hf
      exact ⟨hleaves.mem_iff.2 (hnames.blocks b hb), hprocess b hb⟩
  · obtain ⟨os, hos, houtcomes⟩ := hleaves.outcomes
    rw [houtcomes]
    refine List.forall_mem_append.2 ⟨fun o ho => ?_, List.forall_mem_map.2 fun o ho => ?_⟩
    · rw [hleaves.mem_iff]
      exact h.outcomes o (mem_dueAfter.1 ho).1
    · obtain ⟨g, hg, p, rfl⟩ := exists_left_of_mem hos ho
      exact hleaves.mem_iff.2 (hnames.grants g hg)

end Cell.Ready

/-! ## From the beginning to the end -/

namespace Cell

/-- The players of a carrier are listed under their own names. -/
theorem named_playersOf (s : Scenario) (index : Nat) (r : Rnti) (p : Player)
    (hp : (playersOf s index)[r]? = some p) : p.profile.rnti = r := by
  suffices h : ∀ (r : Rnti) (p : Player), (playersOf s index)[r]? = some p →
      p.profile.rnti = r from h r p hp
  refine List.foldlRecOn (motive := fun (t : Table Rnti Player) =>
    ∀ (r : Rnti) (p : Player), t[r]? = some p → p.profile.rnti = r) _ _ ?_ ?_
  · simp
  · intro t ht ue _ r p hp
    rw [Table.getElem?_insert] at hp
    split at hp
    next heq =>
      obtain rfl := Option.some.inj hp
      exact heq.symm
    next => exact ht r p hp

/-- The players of a cell come into service one after the other. -/
theorem enroll_players {s : SchedulerState Record} {known : Rnti → Prop} {ps : List Player}
    (h : s.Serves policy config known playedLcid) (hnodup : (ps.map (·.profile.rnti)).Nodup)
    (hnew : ∀ p ∈ ps, ¬known p.profile.rnti) :
    ∃ es s', s.replay policy (ps.flatMap fun p =>
        [.configureUe p.profile.rnti p.profile.mode,
          .configureBearers p.profile.rnti [bearerOf p.profile]]) = .ok (es, s') ∧
      s'.Serves policy config (fun r => r ∈ ps.map (·.profile.rnti) ∨ known r) playedLcid := by
  induction ps generalizing s known with
  | nil => exact ⟨[], s, rfl, by simpa using h⟩
  | cons p ps ih =>
    obtain ⟨hp, hnew⟩ := List.forall_mem_cons.1 hnew
    obtain ⟨hfirst, hnodup⟩ := List.nodup_cons.1 hnodup
    -- The first player comes into service, and is then one of those known when the others follow.
    obtain ⟨es₁, s₁, hes₁, hs₁⟩ :=
      h.enroll hp p.profile.mode (bearerOf p.profile) rfl (by decide)
    obtain ⟨es₂, s₂, hes₂, hs₂⟩ := ih hs₁ hnodup fun q hq => by
      rintro (heq | hknown)
      · exact hfirst (List.mem_map.2 ⟨q, hq, heq⟩)
      · exact hnew q hq hknown
    refine ⟨es₁ ++ es₂, s₂, SchedulerState.replay_append hes₁ hes₂, ?_⟩
    convert hs₂ using 2 with r
    simp only [List.map_cons, List.mem_cons]
    tauto

/-- A cell of an accepted scenario can be set up, and then is ready. -/
theorem exists_start {s : Scenario} (hs : s.Accepted) {carrier : Carrier}
    (hcarrier : carrier ∈ s.carriers) (policy : Policy Record) (index : Nat) :
    ∃ c, start policy s carrier index = .ok c ∧ c.Ready policy s.config := by
  obtain ⟨hdownlink, huplink⟩ := hs.isStandard carrier hcarrier
  let grid : Grid := ⟨carrier.downlinkBandwidth, carrier.uplinkBandwidth⟩
  let reuse := s.plan.policy grid.rbgCount grid.uplink
  let players := playersOf s index
  -- The policy of the plan is made for the grid, so the new cell is set up, and then its players
  -- come into service.
  have hfit := s.plan.fits_policy grid
  obtain ⟨es, hes⟩ := SchedulerState.replay_newCell policy s.config hdownlink huplink hfit
  have hserves := SchedulerState.serves_newCell policy s.config playedLcid hdownlink huplink hfit
    (s.plan.blank_policy grid.rbgCount grid.uplink).memory
  have hkeys : players.values.map (·.profile.rnti) = players.keys :=
    Table.map_values (named_playersOf s index)
  obtain ⟨es', s', hes', hs'⟩ := enroll_players hserves
    (hkeys ▸ Std.ExtTreeMap.nodup_keys : (players.values.map (·.profile.rnti)).Nodup)
    fun _ _ => id
  have htell := tellAll_of_replay (SchedulerState.replay_append hes hes')
  refine ⟨_, bind_eq_ok.2 ⟨s', htell, rfl⟩, ?_, named_playersOf s index, ?_, ?_⟩
  · convert hs' using 2 with r
    rw [or_false, hkeys, Std.ExtTreeMap.mem_keys]
  · exact nofun
  · exact nofun

/-- A cell that is ready can be played for any number of subframes. -/
theorem Ready.exists_plays (h : c.Ready policy config) (n : Nat) :
    ∃ ts c', Plays policy c ts c' ∧ ts.length = n ∧ c'.Ready policy config := by
  induction n with
  | zero => exact ⟨[], c, .start, rfl, h⟩
  | succ n ih =>
    obtain ⟨ts, c', hplays, rfl, hready⟩ := ih
    obtain ⟨t, rfl, htaken⟩ := hready.exists_turn
    exact ⟨ts ++ [t], t.next, hplays.turn htaken, List.length_append, hready.next htaken⟩

/-- A cell that is ready can release all of its UEs, and then its scheduler holds nothing. -/
theorem Ready.exists_release (h : c.Ready policy config) :
    ∃ c', c.release policy = .ok c' ∧ c'.scheduler.sizes = .zero := by
  obtain ⟨es, s', hes, hs'⟩ := h.serves.dismiss_all Std.ExtTreeMap.nodup_keys
    fun r => Std.ExtTreeMap.mem_keys.symm
  exact ⟨_, bind_eq_ok.2 ⟨s', tellAll_of_replay hes, rfl⟩, hs'.sizes_eq_zero⟩

end Cell

/-- Every turn of a cell that was ready at the beginning finds it ready. -/
theorem Plays.ready {c₀ : Cell Record} {ts : List (Turn Record)} (h : Plays policy c₀ ts c)
    (hc₀ : c₀.Ready policy config) :
    c.Ready policy config ∧ ∀ t ∈ ts, t.cell.Ready policy config ∧ t.Taken policy := by
  induction h with
  | start => exact ⟨hc₀, by simp⟩
  | turn _ htaken ih =>
    obtain ⟨hready, hall⟩ := ih
    refine ⟨hready.next htaken, List.forall_mem_append.2 ⟨hall, ?_⟩⟩
    rw [List.forall_mem_singleton]
    exact ⟨hready, htaken⟩

/-- The run of every carrier of an accepted scenario comes to its end, for any number of subframes:
the carrier is served, its cell is set up, takes its turns and releases its UEs, and no request is
refused on the way. All grants name UEs of the cell, and in the end no table of the scheduler has an
entry left. -/
theorem Scenario.Accepted.completes {s : Scenario} (hs : s.Accepted) {carrier : Carrier}
    {index : Nat} (hcarrier : s.carriers[index]? = some carrier) (n : Nat) :
    let policy := s.algorithm.policy s.config
    serveCarrier carrier (index + 1) s.algorithm.name = .ok ⟨carrier, index + 1, s.algorithm⟩ ∧
    ∃ c₀ ts c c', Cell.start policy s carrier index = .ok c₀ ∧
      Plays policy c₀ ts c ∧ ts.length = n ∧ c₀.run policy n = .ok c ∧
      (∀ t ∈ ts, t.Names (· ∈ t.cell.players)) ∧
      c.release policy = .ok c' ∧ c'.scheduler.sizes = .zero ∧
      { s with subframes := n }.runCell carrier index =
        .ok (c'.report { s with subframes := n } carrier index) := by
  intro policy
  obtain ⟨c₀, hstart, hc₀⟩ := Cell.exists_start hs (List.mem_of_getElem? hcarrier) policy index
  obtain ⟨ts, c, hplays, rfl, hready⟩ := hc₀.exists_plays n
  obtain ⟨c', hrelease, hsizes⟩ := hready.exists_release
  -- The algorithm is found under its own name.
  have hserve : serveCarrier carrier (index + 1) s.algorithm.name =
      .ok ⟨carrier, index + 1, s.algorithm⟩ := by
    rw [serveCarrier, chooseAlgorithm, Algorithm.ofName?_name]
    rfl
  refine ⟨hserve, c₀, ts, c, c', hstart, hplays, rfl, hplays.run, fun t ht => ?_, hrelease, hsizes,
    ?_⟩
  · obtain ⟨ht, htaken⟩ := (hplays.ready hc₀).2 t ht
    exact (ht.names htaken).1
  · simp only [runCell, bind_eq_ok, pure_eq_ok]
    exact ⟨c₀, hstart, c, hplays.run, c', hrelease, rfl⟩

/-- The carrier of the default scenario, for ten subframes. -/
theorem Scenario.completes_default :
    Scenario.default.Accepted ∧ Scenario.default.carriers[0]? = some Scenario.defaultCarrier ∧
    ∃ c₀ c c', Cell.start (Algorithm.tdBet.policy .default) .default defaultCarrier 0 = .ok c₀ ∧
      c₀.run (Algorithm.tdBet.policy .default) 10 = .ok c ∧
      c.release (Algorithm.tdBet.policy .default) = .ok c' ∧ c'.scheduler.sizes = .zero := by
  have hs : Scenario.default.Accepted := .inl rfl
  have hcarrier : Scenario.default.carriers[0]? = some Scenario.defaultCarrier := rfl
  obtain ⟨-, c₀, ts, c, c', hstart, -, -, hrun, -, hrelease, hsizes, -⟩ := hs.completes hcarrier 10
  exact ⟨hs, hcarrier, c₀, c, c', hstart, hrun, hrelease, hsizes⟩

end LteMac
