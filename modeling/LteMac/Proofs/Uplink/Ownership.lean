import LteMac.Proofs.Uplink.Tables
import LteMac.Proofs.Uplink.Verdicts

/-!
# Owners of uplink blocks

Who sends on a block of an uplink subframe is told twice: by the grants of the uplink trigger and
the answers to random accesses that stood before it, and by the map that the trigger leaves for the
quality reports to come. Both say the same.

The map begins as the map of reserved blocks, which the answers fill and a release empties; the
answers that stand are tracked over the run for the same reason. The passes of the trigger then
assign the blocks of each grant to its UE. As no two grants meet, and none meets an answer, each
block of the map is written at most once, and the map says of it what the decision says.

* `Run.owner_reserved`: before the trigger, the blocks of the answers that stand are reserved, and
  no other block is;
* `UplinkTrigger.owner_fresh`: the trigger adds the blocks of its grants;
* `Run.owner_fresh`: its map gives a block to the UE that may send on it (`Event.Gives`).
-/

namespace LteMac

variable {Record : Type} {policy : Policy Record} {config : SchedulerConfig}
  {es : List (Event Record)} {e : Event Record} {s s' : SchedulerState Record} {r : Rnti}

/-- Whether a UE may send on a block in the subframe of an uplink trigger, before which the answers
stood: it is granted the block, or answered with it. -/
def Event.Gives (e : Event Record) (answers : List AccessGrant) (r : Rnti) (block : Nat) : Prop :=
  (∃ g ∈ e.grants, g.rnti = r ∧ block ∈ g.blocks) ∨
    ∃ a ∈ answers, a.rnti = r ∧ block ∈ a.blocks

/-! ## Reserved blocks

Between two uplink triggers only blocks of answers that stand are reserved: an answer reserves its
blocks when it is told, a release frees those of its UE, and a trigger frees all of them.
-/

/-- A block that belongs to a UE is one of an answer to it. -/
def BlockMap.ReservedBy (m : BlockMap) (answers : List AccessGrant) : Prop :=
  ∀ i r, m.owner? i = some r → r = 0 ∨ ∃ a ∈ answers, a.rnti = r ∧ i ∈ a.blocks

namespace BlockMap.ReservedBy

variable {m : BlockMap} {answers : List AccessGrant}

/-- In an empty map no block is reserved. -/
theorem empty (n : Nat) (answers : List AccessGrant) :
    (BlockMap.empty n).ReservedBy answers := by
  intro i r h
  simp only [BlockMap.empty, owner?, Array.getElem?_replicate] at h
  split at h
  · exact .inl (Option.some.inj h).symm
  · cases h

/-- Blocks are given to one more answer. -/
theorem assign (h : m.ReservedBy answers) (a : AccessGrant) :
    (m.assign a.blocks a.rnti).ReservedBy (answers ++ [a]) := by
  intro i r hr
  rw [owner_assign] at hr
  split at hr
  next hi => exact .inr ⟨a, List.mem_append_right _ (List.mem_singleton_self a),
    Option.some.inj hr, hi.1⟩
  next =>
    refine (h i r hr).imp_right ?_
    rintro ⟨b, hb, hname, hib⟩
    exact ⟨b, List.mem_append_left _ hb, hname, hib⟩

/-- The blocks of a released UE belong to nobody. -/
theorem release (h : m.ReservedBy answers) (r : Rnti) :
    (m.release r).ReservedBy (answers.filter (·.rnti ≠ r)) := by
  intro i r' hr'
  rw [owner_release, Option.map_eq_some_iff] at hr'
  obtain ⟨r₀, hr₀, heq⟩ := hr'
  split at heq
  · exact .inl heq.symm
  next hne =>
    subst heq
    refine (h i r₀ hr₀).imp_right ?_
    rintro ⟨a, ha, hname, hi⟩
    exact ⟨a, List.mem_filter.2 ⟨ha, by simpa [hname] using hne⟩, hname, hi⟩

end BlockMap.ReservedBy

/-- The answers of a round get the blocks that it reserves. -/
theorem Access.Round.Answers.reservedBy {round : Round} {reserved reserved' : BlockMap}
    {start : Nat} {ps : List Preamble} {answers before : List AccessGrant}
    (h : round.Answers reserved start ps reserved' answers) (hbefore : reserved.ReservedBy before) :
    reserved'.ReservedBy (before ++ answers) := by
  induction h generalizing before with
  | done | ended => rwa [List.append_nil]
  | collided _ _ ih => exact ih hbefore
  | @granted reserved _ start length p _ _ _ _ _ ih =>
    have hgrant := hbefore.assign (round.grant p (round.firstFree reserved start) length)
    rw [List.append_cons]
    exact ih hgrant

/-- Only the blocks of answers that stand are reserved. -/
theorem Run.reservedBy_standing (hrun : Run policy config es s) :
    s.uplink.reserved.ReservedBy (standing es) := by
  refine hrun.invariant (P := fun es s => s.uplink.reserved.ReservedBy (standing es))
    (.empty 0 _) ?_
  intro es s s' q said hrun h hq
  cases SchedulerState.effect_of_step hq with
  | cell => exact .empty _ _
  | added =>
    rw [standing_concat]
    change s.uplink.reserved.ReservedBy (standing es ++ [])
    rwa [List.append_nil]
  | @released r =>
    rw [standing_concat]
    exact h.release r
  | heard =>
    rw [standing_concat]
    change s.uplink.reserved.ReservedBy (standing es ++ [])
    rwa [List.append_nil]
  -- The answers are reserved one after the other, so they come behind those that stood.
  | @downlink feedback grid =>
    have hanswer := ((Access.roundOf s grid).answers_answer s.uplink.reserved 0
      s.preambles).reservedBy h
    simpa [standing_concat, Event.standing, Event.answers, DownlinkTrigger.decide,
      Indication.answers, Access.answerAll] using hanswer
  | uplink => exact .empty _ _
  | quiet hquiet hmove hsaid =>
    rw [Accounts.standing_of_quiet hquiet hsaid, hmove.reserved]
    exact h

/-- A block is reserved for a UE if an answer to it stands. -/
theorem Run.owner_reserved (hrun : Run policy config es s) (hnames : ∀ e ∈ es, 0 ∉ e.request.rntis)
    (hr : r ≠ 0) (i : Nat) :
    s.uplink.reserved.owner? i = some r ↔ ∃ a ∈ standing es, a.rnti = r ∧ i ∈ a.blocks := by
  constructor
  · exact fun h => (hrun.reservedBy_standing i r h).resolve_left hr
  · rintro ⟨a, ha, rfl, hi⟩
    exact (hrun.accounts hnames).reserves.owned a ha i hi

/-! ## Granted blocks

A trigger starts from the reserved blocks and gives the blocks of each grant to its UE. As no two
grants meet, a block belongs to the UE that is granted it, and to the UE it was reserved for if
nobody is.
-/

/-- Gives the blocks of grants to their UEs. -/
def BlockMap.give (m : BlockMap) (grants : List UplinkGrant) : BlockMap :=
  grants.foldl (fun m g => m.assign g.blocks g.rnti) m

namespace BlockMap

/-- The blocks of one more grant. -/
theorem give_concat (m : BlockMap) (grants : List UplinkGrant) (g : UplinkGrant) :
    m.give (grants ++ [g]) = (m.give grants).assign g.blocks g.rnti := by
  simp [give]

/-- Grants may be given out in two parts. -/
theorem give_append (m : BlockMap) (grants grants' : List UplinkGrant) :
    m.give (grants ++ grants') = (m.give grants).give grants' := List.foldl_append ..

/-- No grant changes how many blocks there are. -/
theorem size_give (m : BlockMap) (grants : List UplinkGrant) : (m.give grants).size = m.size := by
  induction grants using List.reverseRecOn with
  | nil => rfl
  | append_singleton gs g ih => rw [give_concat, size_assign, ih]

/-- A block that no grant has stays with its owner. -/
theorem owner_give_of_not_mem {m : BlockMap} {grants : List UplinkGrant} {i : Nat}
    (h : ∀ g ∈ grants, i ∉ g.blocks) : (m.give grants).owner? i = m.owner? i := by
  induction grants using List.reverseRecOn with
  | nil => rfl
  | append_singleton gs g ih =>
    obtain ⟨hgs, hg⟩ := List.forall_mem_append.1 h
    rw [give_concat, owner_assign, if_neg fun hi => hg g (List.mem_singleton_self g) hi.1, ih hgs]

/-- Of grants that do not meet, each gets its blocks. -/
theorem owner_give_of_mem {m : BlockMap} {grants : List UplinkGrant} {g : UplinkGrant} {i : Nat}
    (hdisjoint : (grants.map (·.blocks)).Pairwise List.Disjoint) (hlt : i < m.size)
    (hg : g ∈ grants) (hi : i ∈ g.blocks) : (m.give grants).owner? i = some g.rnti := by
  induction grants using List.reverseRecOn with
  | nil => cases hg
  | append_singleton gs g' ih =>
    rw [List.map_append, List.pairwise_append] at hdisjoint
    obtain ⟨hgs, -, hnew⟩ := hdisjoint
    rw [give_concat, owner_assign, size_give]
    rcases List.mem_append.1 hg with hg | hg
    · have hother : i ∉ g'.blocks :=
        hnew _ (List.mem_map_of_mem hg) _ (List.mem_singleton_self _) hi
      rw [if_neg fun h => hother h.1, ih hgs hg]
    · obtain rfl := List.mem_singleton.1 hg
      rw [if_pos ⟨hi, hlt⟩]

end BlockMap

namespace UplinkRetry

variable {round : Round}

/-- A pass gives the blocks of its grants to their UEs. -/
theorem map_foldl_handle {o : Occupancy} (hfair : round.Fair o) {m : BlockMap}
    (hmap : round.map = m.give round.sent) (outcomes : List UplinkOutcome) :
    (outcomes.foldl Round.handle round).map = m.give (outcomes.foldl Round.handle round).sent := by
  induction outcomes generalizing round with
  | nil => exact hmap
  | cons outcome rest ih =>
    refine ih (hfair.handle outcome) ?_
    obtain ⟨hsame, hsent⟩ | ⟨u, g, hu, hretry, hassign, hsent⟩ := handle_eq round outcome
    · rw [hsame, hsent, hmap]
    · -- A process remembers grants of its own UE.
      have hname := (hfair.sound _ u hu _ g (UplinkEntity.grant_of_retry hretry)).1
      rw [hassign, hsent, BlockMap.give_concat, hmap, ← hname]
      rfl

end UplinkRetry

namespace UplinkNew

variable {setting : Setting} {round : Round}

/-- A pass over the candidates gives the blocks of its grants to their UEs. -/
theorem map_serveAll {m : BlockMap} (hmap : round.map = m.give round.sent) (cs : List Rnti) :
    (setting.serveAll round cs).map = m.give (setting.serveAll round cs).sent := by
  unfold Setting.serveAll
  split
  · exact hmap
  · induction cs using List.reverseRecOn with
    | nil => exact hmap
    | append_singleton cs c ih =>
      rw [List.foldl_append]
      obtain ⟨-, hsame, hsent⟩ | ⟨g, rfl, -, -, -, hassign, hsent⟩ :=
        serve_eq setting (cs.foldl setting.serve round) c
      · exact (hsame.trans ih).trans (congrArg m.give hsent).symm
      · refine hassign.trans ?_
        rw [ih, ← BlockMap.give_concat]
        exact (congrArg m.give hsent).symm

end UplinkNew

namespace UplinkTrigger

variable (s : SchedulerState Record) (grid : Grid) (outcomes : List UplinkOutcome)

/-- The map of a trigger gives the blocks of its grants to their UEs. -/
theorem map_fresh (hsound : UplinkTable.Sound s.uplink.ues) :
    (fresh s grid outcomes).map = s.uplink.reserved.give (decision s grid outcomes).grants := by
  have hretries : (retries s grid outcomes).map =
      s.uplink.reserved.give (retries s grid outcomes).sent := by
    unfold retries retransmit
    split
    · exact UplinkRetry.map_foldl_handle (fair_start s grid hsound) rfl outcomes
    · rfl
  rw [decision, BlockMap.give_append, ← hretries]
  unfold fresh sendNew
  split
  · rfl
  · exact UplinkNew.map_serveAll rfl _

/-- A block belongs to a UE after a trigger if it was granted to it, or was reserved for it. -/
theorem owner_fresh (hsound : UplinkTable.Sound s.uplink.ues) (hr : r ≠ 0) (i : Nat) :
    (fresh s grid outcomes).map.owner? i = some r ↔
      (∃ g ∈ (decision s grid outcomes).grants, g.rnti = r ∧ i ∈ g.blocks) ∨
        s.uplink.reserved.owner? i = some r := by
  have hhand := handout_decision s grid outcomes hsound
  -- A block that is granted was free when the trigger began, and so reserved for nobody.
  have hfree : ∀ g ∈ (decision s grid outcomes).grants, i ∈ g.blocks →
      s.uplink.reserved.owner? i = some 0 := by
    intro g hg hi
    have hopen := hhand.allots.wasFree _ (List.mem_map_of_mem hg) i hi
    exact BlockMap.isFree_iff.1 ((isFree_opened s grid i).1 hopen).2.2
  have hgranted : ∀ g ∈ (decision s grid outcomes).grants, i ∈ g.blocks →
      (fresh s grid outcomes).map.owner? i = some g.rnti := by
    intro g hg hi
    have hlt : i < s.uplink.reserved.size := (Array.getElem?_eq_some_iff.1 (hfree g hg hi)).1
    rw [map_fresh s grid outcomes hsound]
    exact BlockMap.owner_give_of_mem hhand.allots.disjoint hlt hg hi
  by_cases hsome : ∃ g ∈ (decision s grid outcomes).grants, i ∈ g.blocks
  · obtain ⟨g, hg, hi⟩ := hsome
    constructor
    · intro howner
      exact .inl ⟨g, hg, Option.some.inj ((hgranted g hg hi).symm.trans howner), hi⟩
    · rintro (⟨g', hg', rfl, hi'⟩ | hreserved)
      · exact hgranted g' hg' hi'
      · exact absurd (Option.some.inj (hreserved.symm.trans (hfree g hg hi))) hr
  · have hnone : ∀ g ∈ (decision s grid outcomes).grants, i ∉ g.blocks := fun g hg hi =>
      hsome ⟨g, hg, hi⟩
    rw [map_fresh s grid outcomes hsound, BlockMap.owner_give_of_not_mem hnone]
    refine ⟨.inr, fun h => h.resolve_left ?_⟩
    rintro ⟨g, hg, -, hi⟩
    exact hnone g hg hi

end UplinkTrigger

/-- The map of an uplink trigger gives a block to the UE that may send on it: the one that is
granted the block in this subframe, or answered with it before. A UE 0 would be taken for nobody, so
no request may name it. -/
theorem Run.owner_fresh (hrun : Run policy config es s) (hnames : ∀ e ∈ es, 0 ∉ e.request.rntis)
    (grid : Grid) (time : Subframe) (outcomes : List UplinkOutcome) (hr : r ≠ 0) (i : Nat) :
    (UplinkTrigger.fresh s grid outcomes).map.owner? i = some r ↔
      (UplinkTrigger.event s grid time outcomes).Gives (standing es) r i := by
  have haccounts := hrun.accounts hnames
  rw [UplinkTrigger.owner_fresh s grid outcomes haccounts.sound hr, hrun.owner_reserved hnames hr]
  rw [Event.Gives, UplinkTrigger.grants_event]
  rfl

end LteMac
