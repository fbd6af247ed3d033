import LteMac.Proofs.Uplink.Permission

/-!
# What uplink grants leave over

The candidates of an uplink subframe are served one behind the other: each looks for a stretch from
the end of the grant before it on. A stretch below, which the earlier grants skipped because it was
too short for them or not allowed for their UEs, is not looked at any more. So a candidate may go
empty although blocks are left that it could have been granted; all of these lie below a grant that
was made before its turn.

To say what is left for a candidate, the pass has to be stopped at its turn
(`UplinkTrigger.freshAfter`). There the search begins at the end of the last grant
(`UplinkNew.Round.Behind`), and fails only if not even a shortest stretch is open from there on.
Anything open further down at that time, and still open at the end, lies below that grant; and what
is open at the end was open at the turn, as blocks are never given back.

A candidate may also go empty because a stretch is found but its channel has no usable quality
there. That case is set apart (`Unreachable`), since it is about the channel and not about room.

* `UplinkNew.not_isOpen_of_stretch?`: a candidate goes empty if nothing is open from there on;
* `Reachable.left_below`: what is left for a candidate that goes empty;
* `empty_beside_open_blocks`: a candidate that goes empty beside blocks it could have had.
-/

namespace LteMac

namespace UplinkNew

variable {setting : Setting} {o : Occupancy} {round : Round} {r : Rnti} {cs : List Rnti}

/-- The shortest stretch given to a UE. -/
def Setting.shortest (setting : Setting) : Nat := min minLength setting.length

/-- If there is no stretch from `start` on, not even a shortest one is open there. -/
theorem not_isOpen_of_stretch? {start i : Nat} (h : setting.stretch? o r start = none)
    (hpos : 0 < setting.shortest) (hi : start ≤ i) :
    setting.isOpen o r i setting.shortest = false := by
  refine Bool.eq_false_iff.2 fun hopen => ?_
  have hmem : setting.shortest ∈ setting.lengths := by
    simp only [Setting.lengths, List.mem_reverse, List.mem_range'_1, Setting.shortest]
    omega
  have hnone : setting.window? o r start setting.shortest = none := by
    simpa using List.findSome?_eq_none_iff.1 h _ hmem
  -- The stretch lies in the grid, since its last block is free.
  have hlast : i + (setting.shortest - 1) < o.size := by
    have hblock := List.all_eq_true.1 hopen (i + (setting.shortest - 1))
      (List.mem_range'_1.2 (by omega))
    exact Occupancy.lt_size_of_isFree (Bool.and_eq_true_iff.1 hblock).1
  have hfound := List.find?_eq_none.1 hnone i (List.mem_range'_1.2 (by omega))
  exact hfound hopen

/-- The state of a pass over the candidates `cs`: the next stretch begins where the last grant, to
one of them, ends. -/
structure Round.Behind (setting : Setting) (cs : List Rnti) (round : Round) : Prop where
  /-- The next stretch begins with the first block, or right behind a grant. -/
  start : round.start = 0 ∨ ∃ g ∈ round.sent, g.start + g.length = round.start ∧ 0 < g.length ∧
    ∀ i ∈ g.blocks, round.occupancy.isFree i = false
  /-- Only candidates were served. -/
  named : ∀ g ∈ round.sent, g.rnti ∈ cs

/-- What serving a candidate comes to: it goes empty, or is granted a stretch that was open. -/
inductive Served (setting : Setting) (round : Round) (r : Rnti) : Round → Prop
  /-- There is no stretch for it, or none on which it can be reached. -/
  | empty {quality : UplinkQuality}
      (hwhy : ∀ first length,
        setting.stretch? round.occupancy r round.start = some (first, length) →
          (scheme round.quality r (List.range' first length)).1 = none) :
      Served setting round r { round with quality }
  /-- It is granted the first stretch that it may use, and the next search begins behind that. -/
  | granted {ues : Table Rnti UplinkUe} {quality : UplinkQuality} {map : BlockMap} {g : UplinkGrant}
      (hrnti : g.rnti = r)
      (hstretch : setting.stretch? round.occupancy r round.start = some (g.start, g.length)) :
      Served setting round r
        ⟨ues, quality, round.occupancy.occupy g.blocks, map, g.start + g.length, round.sent ++ [g]⟩

/-- Serving a candidate comes to one of the two. -/
theorem served_serve (setting : Setting) (round : Round) (r : Rnti) :
    Served setting round r (setting.serve round r) := by
  cases hstretch : setting.stretch? round.occupancy r round.start with
  | none =>
    simp only [Setting.serve, hstretch]
    exact (.empty fun _ _ h => by simp [hstretch] at h :
      Served setting round r { round with quality := round.quality })
  | some found =>
    obtain ⟨first, length⟩ := found
    simp only [Setting.serve, hstretch]
    cases hmcs : (scheme round.quality r (List.range' first length)).1 with
    | none =>
      refine .empty fun first' length' h => ?_
      obtain ⟨rfl, rfl⟩ := Prod.mk.inj (Option.some.inj (hstretch.symm.trans h))
      exact hmcs
    | some mcs => exact .granted (g := ⟨r, first, length, _, _, _, _, _, _⟩) rfl hstretch

/-- A candidate for which there is a stretch that its channel can be used on is granted it. -/
theorem exists_sent_serve {first length : Nat}
    (hstretch : setting.stretch? round.occupancy r round.start = some (first, length))
    (husable : (scheme round.quality r (List.range' first length)).1 ≠ none) :
    ∃ g ∈ (setting.serve round r).sent, g.rnti = r := by
  have hserved := served_serve setting round r
  generalize setting.serve round r = next at hserved
  cases hserved with
  | empty hwhy => exact absurd (hwhy first length hstretch) husable
  | @granted _ _ _ g hrnti => exact ⟨g, by simp, hrnti⟩

/-- Serving a candidate takes free blocks, and frees none. -/
theorem Served.isFree {round' : Round} (h : Served setting round r round') {i : Nat}
    (hi : round'.occupancy.isFree i = true) : round.occupancy.isFree i = true := by
  cases h with
  | empty => exact hi
  | granted =>
    rw [Occupancy.isFree_occupy] at hi
    exact (Bool.and_eq_true_iff.1 hi).1

/-- Nor do several candidates free a block. -/
theorem isFree_of_foldl_serve {i : Nat}
    (hi : (cs.foldl setting.serve round).occupancy.isFree i = true) :
    round.occupancy.isFree i = true := by
  induction cs generalizing round with
  | nil => exact hi
  | cons c rest ih => exact (served_serve setting round c).isFree (ih hi)

/-- What was granted stays granted. -/
theorem sent_subset_foldl_serve (cs : List Rnti) :
    round.sent ⊆ (cs.foldl setting.serve round).sent := by
  induction cs generalizing round with
  | nil => exact List.Subset.refl _
  | cons c rest ih =>
    refine List.Subset.trans ?_ ih
    have hserved := served_serve setting round c
    generalize setting.serve round c = round' at hserved
    cases hserved with
    | empty => exact List.Subset.refl _
    | granted => exact List.subset_append_left _ _

/-- After one more candidate, the next stretch begins behind the last grant. -/
theorem Round.Behind.of_served {round' : Round} (h : round.Behind setting cs)
    (hlength : setting.length ≠ 0) (hs : Served setting round r round') :
    round'.Behind setting (cs ++ [r]) := by
  have hnamed : ∀ g ∈ round.sent, g.rnti ∈ cs ++ [r] :=
    fun g hg => List.mem_append_left _ (h.named g hg)
  cases hs with
  | empty => exact ⟨h.start, hnamed⟩
  | @granted _ _ _ g hrnti hstretch =>
    refine ⟨.inr ⟨g, by simp, rfl, (free_of_stretch? hlength hstretch).1, fun i hi => ?_⟩, ?_⟩
    · simp [Occupancy.isFree_occupy, hi]
    · exact List.forall_mem_append.2 ⟨hnamed, by simp [hrnti]⟩

/-- So it is after a pass that begins at the lowest block. -/
theorem behind_foldl_serve (hlength : setting.length ≠ 0) (hstart : round.start = 0)
    (hsent : round.sent = []) (cs : List Rnti) :
    (cs.foldl setting.serve round).Behind setting cs := by
  induction cs using List.reverseRecOn with
  | nil => exact ⟨.inl hstart, by simp [hsent]⟩
  | append_singleton cs c ih =>
    rw [List.foldl_append]
    exact ih.of_served hlength (served_serve ..)

/-- A stretch that is open in a pass begins where the next one may begin, or lies below a grant. -/
theorem Round.Behind.below (h : round.Behind setting cs) {i length : Nat} (hlength : 0 < length)
    (hfree : ∀ j ∈ List.range' i length, round.occupancy.isFree j = true) :
    round.start ≤ i ∨ ∃ g ∈ round.sent, i + length ≤ g.start := by
  obtain hzero | ⟨g, hg, hend, hpos, htaken⟩ := h.start
  · exact .inl (hzero ▸ Nat.zero_le i)
  · rw [or_iff_not_imp_left, Nat.not_le]
    intro hlt
    refine ⟨g, hg, Nat.not_lt.1 fun hbelow => ?_⟩
    -- Otherwise the stretch and the grant have a block in common.
    have hmem : max i g.start ∈ List.range' i length := List.mem_range'_1.2 (by omega)
    have hblock : max i g.start ∈ g.blocks := List.mem_range'_1.2 (by omega)
    exact Bool.false_ne_true ((htaken _ hblock).symm.trans (hfree _ hmem))

/-- What is left open for a candidate that goes empty, although its channel can be used on the
stretch that is found for it, lies below a grant that was made before its turn. -/
theorem below_of_empty (hpos : 0 < setting.shortest) (hstart : round.start = 0)
    (hsent : round.sent = []) {before after : List Rnti} {i : Nat} :
    let atTurn := before.foldl setting.serve round
    let out := (before ++ r :: after).foldl setting.serve round
    (∀ g ∈ out.sent, g.rnti ≠ r) →
    (∀ first length, setting.stretch? atTurn.occupancy r atTurn.start = some (first, length) →
      (scheme atTurn.quality r (List.range' first length)).1 ≠ none) →
    setting.isOpen out.occupancy r i setting.shortest = true →
      ∃ g ∈ out.sent, g.rnti ∈ before ∧ i + setting.shortest ≤ g.start := by
  intro atTurn out hempty hreachable hopen
  have hlength : setting.length ≠ 0 := fun hzero => by
    rw [Setting.shortest, hzero] at hpos
    exact absurd hpos (by decide)
  have hbehind : atTurn.Behind setting before := behind_foldl_serve hlength hstart hsent before
  have hout : out = after.foldl setting.serve (setting.serve atTurn r) := by
    simp only [out, atTurn, List.foldl_append, List.foldl_cons]
  have hsub : (setting.serve atTurn r).sent ⊆ out.sent := hout ▸ sent_subset_foldl_serve after
  have hfree : ∀ j ∈ List.range' i setting.shortest, (setting.serve atTurn r).occupancy.isFree j =
      true ∧ setting.reuse.uplinkAllowed j r = true := fun j hj => by
    obtain ⟨hj, hallowed⟩ := Bool.and_eq_true_iff.1 (List.all_eq_true.1 hopen j hj)
    exact ⟨isFree_of_foldl_serve (hout ▸ hj), hallowed⟩
  have hserved := served_serve setting atTurn r
  generalize setting.serve atTurn r = next at hserved hsub hfree
  cases hserved with
  | @granted _ _ _ g hrnti => exact absurd hrnti (hempty g (hsub (by simp)))
  | empty hwhy =>
    -- It was not skipped for its channel, so nothing was open from the last grant on.
    have hnone : setting.stretch? atTurn.occupancy r atTurn.start = none :=
      Option.eq_none_iff_forall_not_mem.2 fun found hfound =>
        hreachable found.1 found.2 hfound (hwhy _ _ hfound)
    rcases hbehind.below hpos fun j hj => (hfree j hj).1 with habove | ⟨g, hg, hbelow⟩
    · have hclosed := not_isOpen_of_stretch? hnone hpos habove
      rw [Setting.isOpen, List.all_eq_true.2 fun j hj => Bool.and_eq_true_iff.2 (hfree j hj)]
        at hclosed
      cases hclosed
    · exact ⟨g, hsub hg, hbehind.named g hg, hbelow⟩

end UplinkNew

namespace UplinkTrigger

variable {Record : Type} (s : SchedulerState Record) (grid : Grid)
  (outcomes : List UplinkOutcome)

/-- The UEs that may get new blocks, in the order of their turns. -/
def turns : List Rnti := candidates s (retries s grid outcomes)

/-- What stays the same while new blocks are granted. -/
def terms : UplinkNew.Setting :=
  ⟨s.config.harqEnabled, s.reuse, stretchLength s grid s.reuse.uplinkFlags
    ((turns s grid outcomes).length + (retries s grid outcomes).servedCount)⟩

/-- The stage of new blocks once some UEs had their turns. -/
def freshAfter (cs : List Rnti) : UplinkNew.Round :=
  cs.foldl (terms s grid outcomes).serve
    ⟨(retries s grid outcomes).ues, s.uplink.quality.refresh, (retries s grid outcomes).occupancy,
      (retries s grid outcomes).map, 0, []⟩

/-- All new blocks are granted once everybody had a turn. -/
theorem fresh_eq_freshAfter (hlength : (terms s grid outcomes).length ≠ 0) :
    fresh s grid outcomes = freshAfter s grid outcomes (turns s grid outcomes) := by
  unfold fresh sendNew
  split
  next hempty =>
    rw [turns, List.isEmpty_iff.1 hempty]
    rfl
  next => exact if_neg hlength

/-- At the turn of a UE, after those of some others, there is a stretch for it, but its channel has
no usable quality there. -/
def Unreachable (before : List Rnti) (r : Rnti) : Prop :=
  ∃ first length, (terms s grid outcomes).stretch? (freshAfter s grid outcomes before).occupancy r
      (freshAfter s grid outcomes before).start = some (first, length) ∧
    (UplinkNew.scheme (freshAfter s grid outcomes before).quality r
      (List.range' first length)).1 = none

/-- At its turn, a candidate for which there is a stretch is granted one, unless its channel has no
usable quality there. -/
theorem exists_fresh_of_turn {before after : List Rnti} {r : Rnti} {first length : Nat}
    (hturns : turns s grid outcomes = before ++ r :: after)
    (hlength : (terms s grid outcomes).length ≠ 0)
    (hstretch : (terms s grid outcomes).stretch? (freshAfter s grid outcomes before).occupancy r
      (freshAfter s grid outcomes before).start = some (first, length))
    (hreachable : ¬Unreachable s grid outcomes before r) :
    ∃ g ∈ (fresh s grid outcomes).sent, g.rnti = r := by
  obtain ⟨g, hg, hr⟩ := UplinkNew.exists_sent_serve hstretch fun hnone =>
    hreachable ⟨first, length, hstretch, hnone⟩
  rw [fresh_eq_freshAfter s grid outcomes hlength, hturns, freshAfter, List.foldl_append]
  exact ⟨g, UplinkNew.sent_subset_foldl_serve after hg, hr⟩

end UplinkTrigger

/-- After a decision, the blocks of a stretch are unused and allowed for a UE: the cell may use
them, they answer no random access, and no grant is on them. -/
def UplinkDecision.LeavesOpen {Record : Type} (d : UplinkDecision) (s : SchedulerState Record)
    (grid : Grid) (r : Rnti) (start length : Nat) : Prop :=
  ∀ i ∈ List.range' start length, i < grid.uplink ∧ flagAt s.reuse.uplinkFlags i = true ∧
    s.uplink.reserved.isFree i = true ∧ (∀ g ∈ d.grants, i ∉ g.blocks) ∧
    s.reuse.uplinkAllowed i r = true

instance {Record : Type} (d : UplinkDecision) (s : SchedulerState Record) (grid : Grid) (r : Rnti)
    (start length : Nat) : Decidable (d.LeavesOpen s grid r start length) :=
  inferInstanceAs (Decidable (∀ i ∈ List.range' start length, i < grid.uplink ∧ _))

variable {Record : Type} {policy : Policy Record} {config : SchedulerConfig}
  {s s' : SchedulerState Record} {said : List Indication}

/-- What an accepted uplink trigger says. -/
theorem SchedulerState.uplinkDecision_of_step {time : Subframe} {outcomes : List UplinkOutcome}
    (hstep : s.step policy (.uplinkTrigger time outcomes) = .ok (s', said)) :
    ∃ grid, s.grid = some grid ∧ said = [.uplink (UplinkTrigger.decision s grid outcomes)] := by
  cases effect_of_step hstep with
  | quiet hq => cases hq
  | uplink hgrid => exact ⟨_, hgrid, rfl⟩

/-- A candidate that goes empty, although its channel can be used, is left with nothing from the
last new grant before its turn on: every stretch that is open for it at the end, of the least length
that is granted, lies below that grant. So a candidate is never passed over before the first new
grant of the subframe, and never if there is nothing below the others. -/
theorem Reachable.left_below {time : Subframe} {outcomes : List UplinkOutcome}
    (h : Reachable policy config s)
    (hstep : s.step policy (.uplinkTrigger time outcomes) = .ok (s', said)) :
    ∃ grid d, s.grid = some grid ∧ said = [.uplink d] ∧
      ∀ before r after, UplinkTrigger.turns s grid outcomes = before ++ r :: after →
        (∀ g ∈ d.grants, g.rnti ≠ r) → ¬UplinkTrigger.Unreachable s grid outcomes before r →
        0 < (UplinkTrigger.terms s grid outcomes).shortest →
        ∀ start, d.LeavesOpen s grid r start (UplinkTrigger.terms s grid outcomes).shortest →
          ∃ g ∈ d.grants, g.ndi = 1 ∧ g.rnti ∈ before ∧
            start + (UplinkTrigger.terms s grid outcomes).shortest ≤ g.start := by
  obtain ⟨es, hrun⟩ := h
  obtain ⟨grid, hgrid, hsaid⟩ := SchedulerState.uplinkDecision_of_step hstep
  refine ⟨grid, UplinkTrigger.decision s grid outcomes, hgrid, hsaid, ?_⟩
  intro before r after hturns hempty hreachable hpos start hopen
  -- Were the common length of the grants zero, the shortest one would be zero as well.
  have hlength : (UplinkTrigger.terms s grid outcomes).length ≠ 0 := fun hzero => by
    rw [UplinkNew.Setting.shortest, hzero] at hpos
    exact absurd hpos (by decide)
  have hfresh := UplinkTrigger.fresh_eq_freshAfter s grid outcomes hlength
  rw [hturns] at hfresh
  have hhand := UplinkTrigger.handout_decision s grid outcomes hrun.sound
  have hgrants : ∀ g ∈ (UplinkTrigger.fresh s grid outcomes).sent,
      g ∈ (UplinkTrigger.decision s grid outcomes).grants :=
    fun g hg => List.mem_append_right _ hg
  -- What is open after the decision was free through all of the second pass.
  have hisOpen : (UplinkTrigger.terms s grid outcomes).isOpen
      (UplinkTrigger.fresh s grid outcomes).occupancy r start
      (UplinkTrigger.terms s grid outcomes).shortest = true := by
    refine List.all_eq_true.2 fun i hi => Bool.and_eq_true_iff.2 ⟨?_, (hopen i hi).2.2.2.2⟩
    obtain ⟨hin, husable, hreserved, hunused, -⟩ := hopen i hi
    refine (hhand.allots.isFree i).2
      ⟨(UplinkTrigger.isFree_opened s grid i).2 ⟨hin, husable, hreserved⟩, ?_⟩
    simpa using hunused
  have hnew := UplinkTrigger.permits_fresh s grid outcomes
  rw [hfresh] at hisOpen hgrants hnew
  obtain ⟨g, hg, hbefore, hbelow⟩ := UplinkNew.below_of_empty hpos rfl rfl
    (fun g hg => hempty g (hgrants g hg))
    (fun first length hfound hnone => hreachable ⟨first, length, hfound, hnone⟩) hisOpen
  exact ⟨g, hgrants g hg, (hnew g hg).1, hbefore, hbelow⟩

/-- In a cell whose highest five blocks are its uplink edge band, a UE of the edge and one of the
centre have something to send. -/
def edgeAndCentre : List Request :=
  [.connect true true, .configureCell 15 15, .installReuse (.soft 7 15 ⟨0, 3⟩ ⟨10, 5⟩ 7),
    .configureUe 1 .singleAntenna, .configureUe 2 .singleAntenna,
    .quality [⟨1, 1, .wideband, [3], []⟩],
    .uplinkControls [(1, .bufferStatus [1, 0, 0, 0]), (2, .bufferStatus [1, 0, 0, 0])]]

/-- The UE of the edge is granted its band, and the one of the centre goes empty, for the search
for a stretch goes on behind that band. -/
theorem exists_edgeAndCentre :
    ∃ (s s' : SchedulerState Throughput) (grid : Grid),
      Reachable .tdBet .default s ∧ s.grid = some grid ∧
      s.step .tdBet (.uplinkTrigger ⟨0⟩ []) =
        .ok (s', [.uplink (UplinkTrigger.decision s grid [])]) ∧
      s.uplink.quality.refresh.contains 2 = false ∧ UplinkTrigger.turns s grid [] = [1, 2] ∧
      (UplinkTrigger.decision s grid []).grants.map (fun g => (g.rnti, g.blocks)) =
        [(1, List.range' 10 5)] ∧
      (UplinkTrigger.terms s grid []).shortest = 3 ∧
      (UplinkTrigger.terms s grid []).stretch? (UplinkTrigger.freshAfter s grid [] [1]).occupancy 2
        (UplinkTrigger.freshAfter s grid [] [1]).start = none ∧
      (UplinkTrigger.decision s grid []).LeavesOpen s grid 2 0 3 := by
  obtain ⟨es, e, hrun, hstep, hcheck⟩ := Run.of_replay_step .tdBet .default edgeAndCentre
    (.uplinkTrigger ⟨0⟩ []) (fun _ e => e.before.grid.any fun grid =>
      !e.before.uplink.quality.refresh.contains 2 &&
      UplinkTrigger.turns e.before grid [] == [1, 2] &&
      (UplinkTrigger.decision e.before grid []).grants.map (fun g => (g.rnti, g.blocks)) ==
        [(1, List.range' 10 5)] &&
      (UplinkTrigger.terms e.before grid []).shortest == 3 &&
      ((UplinkTrigger.terms e.before grid []).stretch?
        (UplinkTrigger.freshAfter e.before grid [] [1]).occupancy 2
        (UplinkTrigger.freshAfter e.before grid [] [1]).start).isNone &&
      decide ((UplinkTrigger.decision e.before grid []).LeavesOpen e.before grid 2 0 3))
    (by decide +kernel)
  obtain ⟨grid, hgrid, hcheck⟩ := (Option.any_eq_true ..).1 hcheck
  simp only [Bool.and_eq_true, Bool.not_eq_true', beq_iff_eq, Option.isNone_iff_eq_none,
    decide_eq_true_iff] at hcheck
  obtain ⟨⟨⟨⟨⟨hsilent, hturns⟩, hgrants⟩, hshortest⟩, hnone⟩, hopen⟩ := hcheck
  obtain ⟨grid', hgrid', hsaid⟩ := SchedulerState.uplinkDecision_of_step hstep
  obtain rfl := Option.some.inj (hgrid.symm.trans hgrid')
  exact ⟨e.before, e.after, grid, hrun.reachable, hgrid, hsaid ▸ hstep, hsilent, hturns, hgrants,
    hshortest, hnone, hopen⟩

/-- A candidate whose channel is not known to be bad goes empty although three blocks are left that
it could have been granted, which is as few as it asks for. They are below the grant of the UE
before it, and the search for a stretch does not go back. -/
theorem empty_beside_open_blocks :
    ¬∀ (s s' : SchedulerState Throughput) (grid : Grid) (d : UplinkDecision),
      Reachable .tdBet .default s → s.grid = some grid →
      s.step .tdBet (.uplinkTrigger ⟨0⟩ []) = .ok (s', [.uplink d]) →
      ∀ r ∈ UplinkTrigger.turns s grid [], (∀ g ∈ d.grants, g.rnti ≠ r) →
        (∀ blocks, (UplinkNew.scheme s.uplink.quality.refresh r blocks).1 ≠ none) →
        ∀ start, ¬d.LeavesOpen s grid r start (UplinkTrigger.terms s grid []).shortest := by
  intro hcomplete
  obtain ⟨s, s', grid, hreach, hgrid, hstep, hsilent, hturns, hgrants, hshortest, -, hopen⟩ :=
    exists_edgeAndCentre
  refine hcomplete s s' grid _ hreach hgrid hstep 2 (by simp [hturns]) (fun g hg hr => ?_) ?_ 0
    (hshortest ▸ hopen)
  · have hmem := List.mem_map_of_mem (f := fun g : UplinkGrant => (g.rnti, g.blocks)) hg
    rw [hgrants, List.mem_singleton] at hmem
    exact absurd (hr.symm.trans (Prod.mk.inj hmem).1) (by decide)
  · simp [UplinkNew.scheme, hsilent]

/-- What is left for that candidate lies below the grant to the UE before it. -/
theorem left_below_edgeAndCentre :
    ∃ (s s' : SchedulerState Throughput) (grid : Grid) (d : UplinkDecision),
      Reachable .tdBet .default s ∧
      s.step .tdBet (.uplinkTrigger ⟨0⟩ []) = .ok (s', [.uplink d]) ∧
      (∀ g ∈ d.grants, g.rnti ≠ 2) ∧ d.LeavesOpen s grid 2 0 3 ∧
      ∃ g ∈ d.grants, g.ndi = 1 ∧ g.rnti ∈ ([1] : List Rnti) ∧ 0 + 3 ≤ g.start := by
  obtain ⟨s, s', grid, hreach, hgrid, hstep, -, hturns, hgrants, hshortest, hnone, hopen⟩ :=
    exists_edgeAndCentre
  obtain ⟨grid', d, hgrid', hsaid, hbelow⟩ := hreach.left_below hstep
  obtain rfl := Option.some.inj (hgrid.symm.trans hgrid')
  obtain rfl := Indication.uplink.inj (List.singleton_inj.1 hsaid)
  have hempty : ∀ g ∈ (UplinkTrigger.decision s grid []).grants, g.rnti ≠ 2 := by
    intro g hg hr
    have hmem := List.mem_map_of_mem (f := fun g : UplinkGrant => (g.rnti, g.blocks)) hg
    rw [hgrants, List.mem_singleton] at hmem
    exact absurd (hr.symm.trans (Prod.mk.inj hmem).1) (by decide)
  refine ⟨s, s', grid, _, hreach, hstep, hempty, hopen, ?_⟩
  rw [← hshortest]
  refine hbelow [1] 2 [] hturns hempty ?_ (by simp [hshortest]) 0 (hshortest ▸ hopen)
  rintro ⟨first, length, hfound, -⟩
  rw [hnone] at hfound
  cases hfound

end LteMac
