import LteMac.Proofs.Uplink.Synchronous

/-!
# Permission for uplink grants

A reuse policy restricts the uplink blocks of a cell, and beyond that the blocks of each UE. New
data is granted on blocks that are allowed for the UE at that time. A failed block is granted again
wherever it was before, as long as the cell may use the blocks: whether they are still allowed for
the UE is not asked again, although the UE may belong to another zone by now, or another policy may
have been installed. The answer to a random access is not restricted to the blocks of the UE at all,
and so neither is its retransmission.

What is left of the permission is where the block comes from. Every retransmission goes back to an
earlier event of the run, in which the block was new data on blocks that were allowed then, or
answered a random access (`Permitted`). And nothing more can be said: a failed block that may be
sent again is granted exactly if there is room for it in the cell, whatever is allowed for its UE,
and in a cell with an edge band it really comes about that the UE has changed sides.

* `origin_of_timetable`: a block was first granted in the event it originates in;
* `Run.permitted`: what a reuse policy has allowed of a grant, and when;
* `granted_without_permission`: a grant that is not permitted when it is made.
-/

namespace LteMac

variable {Record : Type} {policy : Policy Record} {config : SchedulerConfig}
  {es : List (Event Record)} {e : Event Record} {s : SchedulerState Record} {r : Rnti}

namespace ReusePolicy

/-- All blocks of a grant are allowed for its UE. -/
def Permits (p : ReusePolicy) (g : UplinkGrant) : Prop :=
  ∀ i ∈ g.blocks, p.uplinkAllowed i g.rnti = true

/-- Whether the uplink of every UE is restricted as that of the cell is. -/
def isImpartial (p : ReusePolicy) : Bool :=
  match p.rule with
  | .full | .hard .. | .distributed .. => true
  | .soft .. | .enhanced .. => false

/-- What the cell may use is allowed for every UE. -/
theorem uplinkAllowed_of_usable {p : ReusePolicy} (h : p.isImpartial = true) {i : Nat}
    (husable : flagAt p.uplinkFlags i = true) (r : Rnti) : p.uplinkAllowed i r = true := by
  rw [uplinkFlags, flagAt_flags] at husable
  obtain ⟨rbgs, blocks, rule⟩ := p
  cases rule with
  | full => rfl
  | hard => exact husable
  | distributed => exact (Bool.and_eq_true_iff.1 husable).1
  | soft | enhanced => cases h

end ReusePolicy

/-! ## The two passes -/

namespace UplinkRetry

variable {round : Round}

/-- What the pass grants is no new data. -/
theorem ndi_foldl_handle (hsent : ∀ g ∈ round.sent, g.ndi = 0) (outcomes : List UplinkOutcome) :
    ∀ g ∈ (outcomes.foldl Round.handle round).sent, g.ndi = 0 := by
  induction outcomes generalizing round with
  | nil => exact hsent
  | cons o rest ih =>
    refine ih ?_
    obtain ⟨-, heq⟩ | ⟨_, g, -, -, -, heq⟩ := handle_eq round o
    · rwa [heq]
    · rw [heq]
      exact List.forall_mem_append.2 ⟨hsent, by simp⟩

end UplinkRetry

namespace UplinkNew

variable {setting : Setting} {round : Round}

/-- A candidate is sent new data on allowed blocks, or nothing. -/
theorem permits_serve (h : ∀ g ∈ round.sent, g.ndi = 1 ∧ setting.reuse.Permits g) (c : Rnti) :
    ∀ g ∈ (setting.serve round c).sent, g.ndi = 1 ∧ setting.reuse.Permits g := by
  obtain ⟨-, -, hsent⟩ | ⟨g, rfl, hnew, hopen, -, -, hsent⟩ := serve_eq setting round c
  · rwa [hsent]
  · rw [hsent]
    refine List.forall_mem_append.2 ⟨h, fun g' hg' => ?_⟩
    obtain rfl := List.mem_singleton.1 hg'
    exact ⟨hnew, fun i hi => (Bool.and_eq_true_iff.1 (List.all_eq_true.1 hopen i hi)).2⟩

/-- A pass over any candidates grants new data on allowed blocks. -/
theorem permits_serveAll (hsent : round.sent = []) (cs : List Rnti) :
    ∀ g ∈ (setting.serveAll round cs).sent, g.ndi = 1 ∧ setting.reuse.Permits g := by
  have hstart : ∀ g ∈ round.sent, g.ndi = 1 ∧ setting.reuse.Permits g := by simp [hsent]
  unfold Setting.serveAll
  split
  · exact hstart
  · induction cs using List.reverseRecOn with
    | nil => exact hstart
    | append_singleton cs c ih =>
      rw [List.foldl_append]
      exact permits_serve ih c

end UplinkNew

namespace UplinkTrigger

variable (s : SchedulerState Record) (grid : Grid) (outcomes : List UplinkOutcome)

/-- Nothing is retransmitted unless the cell does so at all. -/
theorem ndi_retries : ∀ g ∈ (retries s grid outcomes).sent,
    g.ndi = 0 ∧ s.config.harqEnabled = true := by
  unfold retries retransmit
  split
  next henabled =>
    intro g hg
    exact ⟨UplinkRetry.ndi_foldl_handle (List.forall_mem_nil _) outcomes g hg, henabled⟩
  next => exact List.forall_mem_nil _

/-- New data is granted on allowed blocks. -/
theorem permits_fresh : ∀ g ∈ (fresh s grid outcomes).sent, g.ndi = 1 ∧ s.reuse.Permits g := by
  unfold fresh sendNew
  split
  · exact List.forall_mem_nil _
  · exact UplinkNew.permits_serveAll rfl _

/-- A grant of a trigger is on blocks that the cell may use, and either is a retransmission or new
data on allowed blocks. -/
theorem usable_of_grant (hsound : UplinkTable.Sound s.uplink.ues) (time : Subframe)
    {d : UplinkGrant} (hd : d ∈ (event s grid time outcomes).grants) :
    (∀ i ∈ d.blocks, flagAt s.reuse.uplinkFlags i = true) ∧
      (d.ndi = 1 ∧ s.reuse.Permits d ∨ d.ndi = 0 ∧ s.config.harqEnabled = true) := by
  rw [grants_event] at hd
  have hhand := handout_decision s grid outcomes hsound
  refine ⟨fun i hi => ?_, ?_⟩
  · have hfree := hhand.allots.wasFree _ (List.mem_map_of_mem hd) i hi
    exact ((isFree_opened s grid i).1 hfree).2.1
  · rcases List.mem_append.1 hd with hd | hd
    · exact .inr (ndi_retries s grid outcomes d hd)
    · exact .inl (permits_fresh s grid outcomes d hd)

end UplinkTrigger

/-! ## Origins -/

/-- The event that a block originates in granted it, or answered a random access with it. -/
theorem origin_of_timetable {k : Fin uplinkProcesses} {b : Transit}
    (hb : timetable es r k = some b) :
    ∃ m e₀, b.origin? = some m ∧ es[m]? = some e₀ ∧
      (b.grant ∈ e₀.grants ∨ ∃ a ∈ e₀.answers, Access.uplinkGrant a = b.grant) := by
  induction es using List.reverseRecOn generalizing k b with
  | nil => cases hb
  | append_singleton es e ih =>
    have hlast : (es ++ [e])[es.length]? = some e := List.getElem?_concat_length ..
    have hkept : ∀ {k b}, timetable es r k = some b → ∃ m e₀, b.origin? = some m ∧
        (es ++ [e])[m]? = some e₀ ∧
          (b.grant ∈ e₀.grants ∨ ∃ a ∈ e₀.answers, Access.uplinkGrant a = b.grant) := by
      intro k b hmem
      obtain ⟨m, e₀, horigin, he₀, hgranted⟩ := ih hmem
      refine ⟨m, e₀, horigin, ?_, hgranted⟩
      rw [List.getElem?_append_left (List.getElem?_eq_some_iff.1 he₀).1, he₀]
    rw [timetable_concat] at hb
    cases Event.carries_of_mem hb with
    | kept hmem => exact hkept hmem
    | @granted g hmem => exact ⟨_, e, rfl, hlast, .inl hmem⟩
    | @answered a hmem => exact ⟨_, e, rfl, hlast, .inr ⟨a, hmem, rfl⟩⟩
    | @retried b _ hmem =>
      -- A block that is sent again keeps its origin and its grant.
      obtain ⟨m, e₀, horigin, he₀, hgranted⟩ := hkept hmem
      have hproper := (orderly_timetable es r).proper Timetable.due b hmem
      have hfollows := Transit.follows_retried b es.length
        ((e.grants.filter (·.rnti = r)).any (·.ndi = 0))
      exact ⟨m, e₀, (hfollows.origin hproper).trans horigin, he₀, hgranted⟩

/-! ## Grants -/

/-- What a reuse policy has allowed of the grant `d` of event `n`. -/
structure Permitted (es : List (Event Record)) (n : Nat) (e : Event Record) (d : UplinkGrant) :
    Prop where
  /-- The cell may use the blocks now. -/
  usable : ∀ i ∈ d.blocks, flagAt e.before.reuse.uplinkFlags i = true
  /-- A policy that makes no difference between UEs allows the blocks now. -/
  impartial : e.before.reuse.isImpartial = true → e.before.reuse.Permits d
  /-- The blocks of new data are allowed now; a block that is granted again was allowed when it was
  granted for the first time, or it answered a random access then. -/
  origin : d.ndi = 1 ∧ e.before.reuse.Permits d ∨
    d.ndi = 0 ∧ ∃ m e₀ d₀, m < n ∧ es[m]? = some e₀ ∧ d = { d₀ with ndi := 0 } ∧
      (d₀ ∈ e₀.grants ∧ d₀.ndi = 1 ∧ e₀.before.reuse.Permits d₀ ∨
        ∃ a ∈ e₀.answers, Access.uplinkGrant a = d₀)

namespace Run

variable {n : Nat}

/-- The processes of every UE remember proper grants. -/
theorem sound (hrun : Run policy config es s) : UplinkTable.Sound s.uplink.ues :=
  hrun.invariant (P := fun _ s => UplinkTable.Sound s.uplink.ues) .empty
    fun _ hsound hq => SchedulerState.sound_of_step hsound hq

/-- What is granted again was granted by an earlier event, or answered a random access then. -/
theorem origin_of_again (hrun : Run policy config es s) (henabled : config.harqEnabled = true)
    (he : es[n]? = some e) {d : UplinkGrant} (hd : d ∈ e.grants) (hndi : d.ndi = 0) :
    ∃ m e₀ d₀, m < n ∧ es[m]? = some e₀ ∧ d₀.ndi = 1 ∧ d = { d₀ with ndi := 0 } ∧
      (d₀ ∈ e₀.grants ∨ ∃ a ∈ e₀.answers, Access.uplinkGrant a = d₀) := by
  have hup := SchedulerState.isUplink_of_grants (hrun.before_of_getElem? he).2 hd
  obtain ⟨b, hdue, rfl⟩ := hrun.again_of_grant henabled he hup hd rfl hndi
  obtain ⟨m, e₀, -, he₀, hgranted⟩ := origin_of_timetable hdue
  have hproper := (orderly_timetable _ _).proper Timetable.due b hdue
  rw [List.getElem?_take] at he₀
  split at he₀
  next hlt => exact ⟨m, e₀, b.grant, hlt, he₀, hproper.isNew, rfl, hgranted⟩
  next => cases he₀

/-- Every grant is on blocks that the cell may use, and new data on allowed blocks. -/
theorem usable_of_grant (hrun : Run policy config es s) (he : es[n]? = some e) {d : UplinkGrant}
    (hd : d ∈ e.grants) :
    (∀ i ∈ d.blocks, flagAt e.before.reuse.uplinkFlags i = true) ∧
      (d.ndi = 1 ∧ e.before.reuse.Permits d ∨ d.ndi = 0 ∧ config.harqEnabled = true) := by
  obtain ⟨hbefore, hstep⟩ := hrun.before_of_getElem? he
  obtain ⟨grid, time, outcomes, -, heq⟩ :=
    SchedulerState.event_of_step hstep (SchedulerState.isUplink_of_grants hstep hd)
  have hd : d ∈ (UplinkTrigger.event e.before grid time outcomes).grants := by
    rw [← heq]
    exact hd
  rw [← hbefore.reachable.invariant.config]
  exact UplinkTrigger.usable_of_grant e.before grid outcomes hbefore.sound time hd

/-- Every grant is on blocks that the cell may use. Those of new data are allowed for the UE, but a
retransmission only needs to have been new data on allowed blocks, or an answer, once: whether a
failed block is granted again does not depend on what is allowed for its UE now. -/
theorem permitted (hrun : Run policy config es s) (he : es[n]? = some e) :
    (∀ d ∈ e.grants, Permitted es n e d) ∧
      (config.harqEnabled = true → ∀ (r : Rnti) (b : Transit), e.verdict? r = some false →
        timetable (es.take n) r Timetable.due = some b → b.retries < maxRetransmissions →
          (b.again ∈ e.grants ↔ e.HasRoom b.grant)) := by
  refine ⟨fun d hd => ?_, fun henabled r b => hrun.again_iff_hasRoom henabled he⟩
  obtain ⟨husable, hcase⟩ := hrun.usable_of_grant he hd
  refine ⟨husable, fun himpartial i hi =>
    ReusePolicy.uplinkAllowed_of_usable himpartial (husable i hi) d.rnti, ?_⟩
  rcases hcase with hnew | ⟨hndi, henabled⟩
  · exact .inl hnew
  · obtain ⟨m, e₀, d₀, hlt, he₀, hnew, hagain, hgranted | hanswered⟩ :=
      hrun.origin_of_again henabled he hd hndi
    · -- The first grant was new data, which is on allowed blocks.
      obtain ⟨-, ⟨-, hpermits⟩ | ⟨hzero, -⟩⟩ := hrun.usable_of_grant he₀ hgranted
      · exact .inr ⟨hndi, m, e₀, d₀, hlt, he₀, hagain, .inl ⟨hgranted, hnew, hpermits⟩⟩
      · rw [hnew] at hzero
        cases hzero
    · exact .inr ⟨hndi, m, e₀, d₀, hlt, he₀, hagain, .inr hanswered⟩

end Run

/-- A cell of 15 blocks whose first five are its uplink edge band. -/
def edgeReuse : ReusePolicy := .soft 7 15 ⟨0, 3⟩ ⟨0, 5⟩ 7

/-- A UE is granted a block in the centre band, in event 5; then it reports a quality of the edge,
and the block fails. -/
def failedInCentre : List Request :=
  [.connect true true, .configureCell 15 15, .installReuse edgeReuse,
    .configureUe 1 .singleAntenna, .uplinkControls [(1, .bufferStatus [1, 0, 0, 0])],
    .uplinkTrigger ⟨0⟩ [], .quality [⟨1, 1, .wideband, [3], []⟩]] ++
  silentTriggers ++ [failedTrigger]

/-- The grant of that block. -/
def centreGrant : UplinkGrant := ⟨1, 5, 5, 13, 0, 1, 1, false, false⟩

/-- The block is granted again on blocks that are not allowed for the UE any more. -/
theorem exists_failedInCentre :
    ∃ (es : List (Event Throughput)) (s : SchedulerState Throughput) (e : Event Throughput),
      Run .tdBet .default es s ∧ es[13]? = some e ∧ e.grants = [{ centreGrant with ndi := 0 }] ∧
      ¬e.before.reuse.Permits { centreGrant with ndi := 0 } := by
  obtain ⟨es, s, hrun, hcheck⟩ := Run.of_replay .tdBet .default failedInCentre
    (fun es =>
      es[13]?.any (fun e => e.grants == [{ centreGrant with ndi := 0 }] &&
        centreGrant.blocks.any fun i => !e.before.reuse.uplinkAllowed i 1)) (by decide +kernel)
  simp only [Bool.and_eq_true, beq_iff_eq, Option.any_eq_true, List.any_eq_true,
    Bool.not_eq_true'] at hcheck
  obtain ⟨e, he, hgrants, i, hi, hforbidden⟩ := hcheck
  refine ⟨es, s, e, hrun, he, hgrants, fun hpermits => ?_⟩
  have hallowed := hpermits i hi
  rw [show ({ centreGrant with ndi := 0 } : UplinkGrant).rnti = 1 from rfl, hforbidden] at hallowed
  cases hallowed

/-- A grant of an accepted uplink trigger that the reuse policy of that moment does not permit: the
block was new in the centre band, and by the time it is granted again its UE belongs to the edge. -/
theorem granted_without_permission :
    ¬∀ (es : List (Event Throughput)) (s : SchedulerState Throughput) (e : Event Throughput)
      (n : Nat), Run .tdBet .default es s → es[n]? = some e →
        ∀ d ∈ e.grants, e.before.reuse.Permits d := by
  intro hpermits
  obtain ⟨es, s, e, hrun, he, hgrants, hforbidden⟩ := exists_failedInCentre
  exact hforbidden (hpermits es s e 13 hrun he _ (by simp [hgrants]))

/-- What was allowed of that block when it was granted for the first time. -/
theorem permitted_failedInCentre :
    ∃ (es : List (Event Throughput)) (s : SchedulerState Throughput) (e : Event Throughput),
      Run .tdBet .default es s ∧ es[13]? = some e ∧ e.grants = [{ centreGrant with ndi := 0 }] ∧
      ¬e.before.reuse.Permits { centreGrant with ndi := 0 } ∧
      Permitted es 13 e { centreGrant with ndi := 0 } := by
  obtain ⟨es, s, e, hrun, he, hgrants, hforbidden⟩ := exists_failedInCentre
  exact ⟨es, s, e, hrun, he, hgrants, hforbidden, (hrun.permitted he).1 _ (by simp [hgrants])⟩

end LteMac
