import LteMac.Proofs.Reuse.Memory
import LteMac.Proofs.Scheduler.Consistency

/-!
# Strangers

A scheduler only keeps something about a UE that it was told of: by a request that names it, or by a
reuse policy that was installed with what it had learned elsewhere (`Request.Names`). A UE that no
request named is a stranger, of which no table, queue or block map knows (`Absent`).

Most tables hold configured UEs only, so for them it is enough that no stranger is ever configured.
The others have entries that outlive their UE or come before it, and are followed request by request
(`SchedulerState.Within`): preambles wait before their UE is configured, block maps of past
subframes name the senders of their blocks, and a reuse policy remembers whom it heard of. The set
of known UEs is a parameter. With it the same lemmas say both that a stranger never gets in and, for
a release, that nobody is left in but the others.

* `SchedulerState.Within.of_step`: an accepted request adds nobody but whom it names;
* `Run.absent_of_unseen`: a UE never named is absent.
-/

namespace LteMac

variable {Record : Type} {policy : Policy Record} {config : SchedulerConfig}
  {s s' : SchedulerState Record} {known known' : Rnti → Prop} {r : Rnti}

/-- Whether a request tells of a UE. -/
def Request.Names (q : Request) (r : Rnti) : Prop :=
  r ∈ q.rntis ∨ ∃ reuse : ReusePolicy, q = .installReuse reuse ∧ reuse.memory r ≠ .blank

/-- No request of a run tells of a UE. -/
def Unseen (es : List (Event Record)) (r : Rnti) : Prop := ∀ e ∈ es, ¬e.request.Names r

/-! ## Block maps

A block map names a UE for each block. Owner 0 stands for nobody, and is therefore never a stranger.
-/

/-- All blocks belong to known UEs or to nobody. -/
def BlockMap.Within (known : Rnti → Prop) (m : BlockMap) : Prop :=
  ∀ i r, m.owner? i = some r → r = 0 ∨ known r

namespace BlockMap.Within

variable {m : BlockMap}

/-- In an empty map no block belongs to anybody. -/
theorem empty (n : Nat) : (BlockMap.empty n).Within known := by
  intro i r h
  simp only [BlockMap.empty, owner?, Array.getElem?_replicate] at h
  split at h
  · exact .inl (Option.some.inj h).symm
  · cases h

/-- More UEs may be known. -/
theorem imp (h : m.Within known) (hsub : ∀ r, known r → known' r) : m.Within known' :=
  fun i r hr => (h i r hr).imp_right (hsub r)

/-- Blocks are given to a known UE. -/
theorem assign (h : m.Within known) (hr : known r) (blocks : List Nat) :
    (m.assign blocks r).Within known := by
  intro i r' hr'
  rw [owner_assign] at hr'
  split at hr'
  · exact .inr (Option.some.inj hr' ▸ hr)
  · exact h i r' hr'

/-- Of a released UE no block is left, so it need not be known any more. -/
theorem release (h : m.Within known) (r : Rnti) :
    (m.release r).Within fun r' => r' ≠ r ∧ known r' := by
  intro i r' hr'
  rw [owner_release, Option.map_eq_some_iff] at hr'
  obtain ⟨r₀, hr₀, heq⟩ := hr'
  split at heq
  · exact .inl heq.symm
  next hne =>
    subst heq
    exact (h i r₀ hr₀).imp_right fun hr => ⟨hne, hr⟩

end BlockMap.Within

/-- Answers go to those who sent a preamble. -/
theorem Access.Round.Answers.within {round : Round} {reserved reserved' : BlockMap} {start : Nat}
    {ps : List Preamble} {answers : List AccessGrant}
    (h : round.Answers reserved start ps reserved' answers) (hreserved : reserved.Within known)
    (hps : ∀ p ∈ ps, known p.rnti) : reserved'.Within known := by
  induction h with
  | done | ended => exact hreserved
  | collided _ _ ih => exact ih hreserved (List.forall_mem_cons.1 hps).2
  | granted _ _ _ ih =>
    obtain ⟨hp, hps⟩ := List.forall_mem_cons.1 hps
    exact ih (hreserved.assign hp _) hps

namespace UplinkRetry.Round

variable {round : Round}

/-- A retransmission goes to a UE of the table. -/
theorem within_handle (h : round.map.Within known) (hues : ∀ r ∈ round.ues, known r)
    (o : UplinkOutcome) : (round.handle o).map.Within known := by
  unfold handle
  split
  · exact h
  · exact h
  · exact h
  next u hu _ =>
    dsimp only
    split
    · exact h
    · exact h
    · unfold send
      split
      · exact h.assign (hues _ (Table.mem_of_getElem? hu)) _
      · exact h

/-- Retransmissions go to UEs of the table, over the whole pass. -/
theorem within_foldl_handle (h : round.map.Within known) (hues : ∀ r ∈ round.ues, known r)
    (outcomes : List UplinkOutcome) : (outcomes.foldl handle round).map.Within known := by
  induction outcomes generalizing round with
  | nil => exact h
  | cons o rest ih =>
    refine ih (within_handle h hues o) fun r hr => hues r ?_
    exact ((tables_handle round o).1 r).1 hr

end UplinkRetry.Round

namespace UplinkNew

/-- New blocks go to candidates. -/
theorem within_serveAll {setting : Setting} {round : Round} {cs : List Rnti}
    (h : round.map.Within known) (hcs : ∀ c ∈ cs, known c) :
    (setting.serveAll round cs).map.Within known := by
  unfold Setting.serveAll
  split
  · exact h
  · refine List.foldlRecOn (motive := fun (round : Round) => round.map.Within known) _ _ h
      fun round h c hc => ?_
    unfold Setting.serve
    split
    · exact h
    · dsimp only
      split
      · exact h
      · exact h.assign (hcs c hc) _

end UplinkNew

/-- An uplink trigger gives blocks to configured UEs only. -/
theorem UplinkTrigger.within_fresh {grid : Grid} {outcomes : List UplinkOutcome}
    (hreserved : s.uplink.reserved.Within known) (hues : ∀ r ∈ s.ues, known r)
    (hrecords : ∀ r : Rnti, r ∈ s.uplink.ues ↔ r ∈ s.ues) :
    (fresh s grid outcomes).map.Within known := by
  have hretries : (retries s grid outcomes).map.Within known := by
    unfold retries retransmit
    split
    · refine UplinkRetry.Round.within_foldl_handle hreserved (fun r hr => hues r ?_) _
      exact (hrecords r).1 (Std.ExtTreeMap.mem_map.1 hr)
    · exact hreserved
  unfold fresh sendNew
  split
  · exact hretries
  · refine UplinkNew.within_serveAll hretries fun c hc => hues c ?_
    have hturn := (List.mem_filter.1 hc).1
    simp only [SchedulerState.rotation, List.mem_append, List.mem_filter] at hturn
    exact Std.ExtTreeMap.mem_keys.1 (hturn.elim And.left And.left)

namespace SchedulerState

/-- Nobody but known UEs is configured, waits for an answer, owns a block or is remembered. -/
structure Within (known : Rnti → Prop) (s : SchedulerState Record) : Prop where
  /-- The configured UEs are known. -/
  ues : ∀ r ∈ s.ues, known r
  /-- Only known UEs wait for an answer. -/
  preambles : ∀ p ∈ s.preambles, known p.rnti
  /-- Only known UEs have blocks reserved. -/
  reserved : s.uplink.reserved.Within known
  /-- Only known UEs had blocks in past subframes. -/
  history : ∀ past ∈ s.uplink.history, past.2.Within known
  /-- Only known UEs are remembered by the reuse policy. -/
  reuse : ∀ r, s.reuse.memory r ≠ .blank → known r

namespace Within

/-- Nobody is known in the beginning. -/
theorem initial : Within known (.initial config : SchedulerState Record) where
  ues r hr := by simp [SchedulerState.initial] at hr
  preambles := by simp [SchedulerState.initial]
  reserved := .empty 0
  history := by simp [SchedulerState.initial]
  reuse r hr := absurd rfl hr

/-- More UEs may be known. -/
theorem imp (h : s.Within known) (hsub : ∀ r, known r → known' r) : s.Within known' where
  ues r hr := hsub r (h.ues r hr)
  preambles p hp := hsub _ (h.preambles p hp)
  reserved := h.reserved.imp hsub
  history past hpast := (h.history past hpast).imp hsub
  reuse r hr := hsub r (h.reuse r hr)

/-- Changing the entry of a configured UE. -/
theorem modifyUe (h : s.Within known) (r : Rnti) (f : Ue → Ue) :
    ({ s with ues := s.ues.modify r f } : SchedulerState Record).Within known :=
  { h with ues := fun r' hr' => h.ues r' (Std.ExtTreeMap.mem_modify.1 hr') }

/-- A mode that adapts is that of a configured UE. -/
theorem adaptMode {out : Outcome Record} (h : out.1.Within known) (report : CqiReport) :
    (adaptMode out report).1.Within known := by
  obtain ⟨s, said⟩ := out
  simp only [SchedulerState.adaptMode]
  split
  · exact h
  · split
    · exact h
    · exact modifyUe h ..

/-- Reports are about UEs that their request names. -/
theorem learned (h : s.Within known) {reports : List CqiReport}
    (hnames : ∀ report ∈ reports, known report.rnti) : (s.learned reports).1.Within known := by
  have hreuse : ∀ r, (s.reuse.learnAll reports).memory r ≠ .blank → known r := by
    intro r hr
    by_cases hmem : r ∈ reports.map (·.rnti)
    · obtain ⟨report, hreport, rfl⟩ := List.mem_map.1 hmem
      exact hnames report hreport
    · rw [ReusePolicy.memory_learnAll fun report hreport heq =>
        hmem (List.mem_map.2 ⟨report, hreport, heq⟩)] at hr
      exact h.reuse r hr
  have hstored : ({ s with
      downlink := { s.downlink with quality := reports.foldl storeQuality s.downlink.quality }
      reuse := s.reuse.learnAll reports } : SchedulerState Record).Within known :=
    { h with reuse := hreuse }
  unfold SchedulerState.learned
  dsimp only
  split
  · exact List.foldlRecOn (motive := fun (out : Outcome Record) => out.1.Within known) _ _ hstored
      fun out hout report _ => hout.adaptMode report
  · exact hstored

/-- Of a released UE nothing is known any more. -/
theorem removeUe (h : s.Within known) (r : Rnti) :
    (s.removeUe r).Within fun r' => r' ≠ r ∧ known r' where
  ues r' hr' := (Table.mem_erase.1 hr').imp_right (h.ues r')
  preambles p hp := by
    obtain ⟨hp, hne⟩ := List.mem_filter.1 hp
    exact ⟨by simpa using hne, h.preambles p hp⟩
  reserved := h.reserved.release r
  history := List.forall_mem_map.2 fun past hpast => (h.history past hpast).release r
  reuse r' hr' := by
    change (s.reuse.forget r).memory r' ≠ _ at hr'
    rw [ReusePolicy.memory_forget] at hr'
    split at hr'
    · exact absurd rfl hr'
    next hne => exact ⟨hne, h.reuse r' hr'⟩

/-- The policy of a new cell remembers nobody but whom the installed one did. -/
theorem memory_of_reuseFor {grid : Grid} {reuse : ReusePolicy} (h : s.Within known)
    (hreuse : s.reuseFor grid = .ok reuse) : ∀ r, reuse.memory r ≠ .blank → known r := by
  unfold reuseFor at hreuse
  split at hreuse
  · simp only [bind_eq_ok, pure_eq_ok] at hreuse
    obtain ⟨-, -, rfl⟩ := hreuse
    exact h.reuse
  · obtain rfl := pure_eq_ok.1 hreuse
    exact fun r hr => absurd rfl hr

/-- An accepted request adds nobody but whom it names. The tables are consistent, so that what is
kept under an identity which is configured now was kept for that UE. -/
theorem of_step (h : s.Within known) (hs : s.Consistent) {q : Request} {said : List Indication}
    (hq : ∀ r, q.Names r → known r) (hstep : s.step policy q = .ok (s', said)) :
    s'.Within known := by
  have hrntis : ∀ r ∈ q.rntis, known r := fun r hr => hq r (.inl hr)
  cases accepted_of_step hstep with
  | connected | paged | queued | elementsAdded | sounded => exact { h with }
  | noise | sinrIgnored | unattributed => exact h
  | installed => exact { h with reuse := fun r hr => hq r (.inr ⟨_, rfl, hr⟩) }
  | cell _ _ _ _ hreuse =>
    exact { h with reserved := .empty _, reuse := h.memory_of_reuseFor hreuse }
  -- The tables that are indexed by UE gain the named UE at most, and those that are kept by block
  -- or in order gain what was said about it.
  | added =>
    exact { h with
      ues := fun r hr => (Table.mem_insert.1 hr).elim
        (fun heq => hrntis r (List.mem_singleton.2 heq)) (h.ues r) }
  | reconfigured => exact h.modifyUe ..
  | bearersAdded | bearersDropped => exact { h.modifyUe _ _ with }
  | removed => exact (h.removeUe _).imp fun _ => And.right
  | heard =>
    exact { h with
      preambles := List.forall_mem_append.2 ⟨h.preambles, List.forall_mem_map.1 hrntis⟩ }
  | qualityTaken => exact h.learned (List.forall_mem_map.1 hrntis)
  | downlink =>
    exact { h with
      preambles := by simp [DownlinkTrigger.decide]
      reserved := (Access.Round.answers_answer ..).within h.reserved h.preambles }
  | uplink =>
    exact { h with
      reserved := .empty _
      history := fun past hpast => by
        rcases List.mem_append.1 (List.mem_of_mem_drop hpast) with hold | hnew
        · exact h.history past (List.mem_filter.1 hold).1
        · rw [List.mem_singleton.1 hnew]
          exact UplinkTrigger.within_fresh h.reserved h.ues hs.uplink.records }
  | requested => exact List.foldlRecOn _ _ h fun _ hs _ _ => { hs with }
  | controlsTaken =>
    refine List.foldlRecOn _ _ h fun s hs control _ => ?_
    unfold takeControl
    split
    · exact { hs with }
    · exact hs
    · exact hs
  | credited =>
    exact { h with history := fun past hpast => h.history past (List.mem_of_mem_eraseP hpast) }

end Within

/-- No table, queue, buffer or map of a scheduler tells of a UE. The clauses about blocks are for a
UE other than 0, since that is how a map says that a block is nobody's. -/
structure Absent (s : SchedulerState Record) (r : Rnti) : Prop where
  /-- The control plane does not know it. -/
  ues : r ∉ s.ues
  /-- The downlink has no record of it. -/
  downlink : r ∉ s.downlink.ues
  /-- The uplink has no record of it. -/
  uplink : r ∉ s.uplink.ues
  /-- It has no slot in the arena. -/
  index : r ∉ s.downlink.harq.index
  /-- It has no wideband report. -/
  wideband : r ∉ s.downlink.quality.wideband.entries
  /-- It has no subband report. -/
  subband : r ∉ s.downlink.quality.subband.entries
  /-- It has no uplink report. -/
  sinr : r ∉ s.uplink.quality.sinr.entries
  /-- No feedback about it waits. -/
  feedback : ∀ f ∈ s.downlink.feedback, f.rnti ≠ r
  /-- No preamble of it waits. -/
  preambles : ∀ p ∈ s.preambles, p.rnti ≠ r
  /-- No reserved block is its own. -/
  reserved : r ≠ 0 → ∀ i, s.uplink.reserved.owner? i ≠ some r
  /-- No block of a past subframe was its own. -/
  history : r ≠ 0 → ∀ past ∈ s.uplink.history, ∀ i, past.2.owner? i ≠ some r
  /-- The reuse policy remembers nothing of it. -/
  memory : s.reuse.memory r = .blank

/-- In consistent tables, a UE that is not configured leaves no trace. -/
theorem Within.absent (h : s.Within (· ≠ r)) (hs : s.Consistent) : s.Absent r := by
  have hues : r ∉ s.ues := fun hr => h.ues r hr rfl
  have hentry {α : Type} {t : AgingTable α} {P : Rnti → α → Prop} (ht : t.All P)
      (hP : ∀ r v, P r v → r ∈ s.ues) : r ∉ t.entries := fun hr => by
    obtain ⟨a, ha⟩ := Table.exists_of_mem hr
    exact hues (hP r _ (ht r a ha))
  have hmap : ∀ m : BlockMap, m.Within (· ≠ r) → r ≠ 0 → ∀ i, m.owner? i ≠ some r :=
    fun m hm hr i hi => (hm i r hi).elim hr fun hne => hne rfl
  exact
    { ues := hues
      downlink := fun hr => hues ((hs.downlink.records.keys r).1 hr)
      uplink := fun hr => hues ((hs.uplink.records r).1 hr)
      index := fun hr => hues ((hs.downlink.harq r).1 hr)
      wideband := hentry hs.downlink.quality.wideband fun _ _ => id
      subband := hentry hs.downlink.quality.subband fun _ _ => id
      sinr := hentry hs.uplink.quality fun _ _ => And.left
      feedback := fun f hf heq => hues (heq ▸ hs.downlink.feedback f hf)
      preambles := h.preambles
      reserved := hmap _ h.reserved
      history := fun hr past hpast => hmap _ (h.history past hpast) hr
      memory := by
        by_contra hmem
        exact h.reuse r hmem rfl }

end SchedulerState

/-- A UE that no request told of is absent, whatever the run did otherwise. -/
theorem Run.absent_of_unseen {es : List (Event Record)} (hrun : Run policy config es s)
    (hr : Unseen es r) : s.Absent r := by
  refine SchedulerState.Within.absent ?_ hrun.reachable.consistent
  induction hrun with
  | start => exact .initial
  | step hrun hq ih =>
    obtain ⟨hes, he⟩ := List.forall_mem_append.1 hr
    refine (ih hes).of_step hrun.reachable.consistent (fun r' hnames heq => ?_) hq
    exact he _ (List.mem_singleton_self _) (heq ▸ hnames)

end LteMac
