import LteMac.Scheduler.State

/-!
# The uplink processes of a UE

Every uplink process remembers a stretch of blocks that was granted to its own UE
(`UplinkEntity.Sound`). A failed block is moved away from the process it is reported on, so that one
block is retransmitted at most once in a subframe, however often its failure is reported.

The processes are taken cyclically. What is reported in a subframe concerns the process that was
present seven subframes ago, which is never the present one (`UplinkEntity.reported_ne_current`):
there are eight of them. So a block that moves to the present process leaves the reported one empty,
and a second report finds nothing there. This is all that the passes over the outcomes need to know
(`UplinkEntity.spent_of_retry`), and it holds whether the block is sent again, dropped, or was never
there.

* `UplinkEntity.Sound.retry`, `store`, `acknowledge`, `advance`: the entities stay sound;
* `UplinkEntity.spent_of_retry`: after a retransmission nothing is left on the reported process;

* `UplinkTable.Sound`: the same for a table of UEs.
-/

namespace LteMac

namespace UplinkEntity

variable {e : UplinkEntity} {r : Rnti} {id id' : Nat} {p : UplinkProcess} {g : UplinkGrant}

/-- A process that is written can be read back; the numbers are taken cyclically. -/
theorem process_set :
    (e.set id p).process id' = if id = id' % uplinkProcesses then p else e.process id' := by
  have hlt : id' % uplinkProcesses < uplinkProcesses := Nat.mod_lt _ (by decide)
  exact Vector.getElem_setIfInBounds hlt

/-- Every process remembers a grant of the UE `r`, if any, and a grant of one block at least. A
retransmission takes UE and blocks from what is remembered, so this is what makes it one of the
right UE. -/
def Sound (e : UplinkEntity) (r : Rnti) : Prop :=
  ∀ id g, (e.process id).grant = some g → g.rnti = r ∧ 0 < g.length

/-- Nothing is left on the process that is reported on. -/
def Spent (e : UplinkEntity) : Prop := (e.process e.reported).grant = none

/-- The number of the reported process is below eight already. -/
theorem reported_lt : e.reported % uplinkProcesses = e.reported :=
  Nat.mod_mod _ _

/-- The reported process is not the present one. -/
theorem reported_ne_current : e.current ≠ e.reported := by
  simp only [reported, uplinkProcesses, outcomeDelay]
  omega

/-- A new entity remembers nothing. -/
theorem sound_fresh : fresh.Sound r := by
  intro id g h
  have hfree : fresh.process id = .free := Vector.getElem_replicate _
  rw [hfree] at h
  cases h

theorem Sound.set (h : e.Sound r) (hp : ∀ g, p.grant = some g → g.rnti = r ∧ 0 < g.length) :
    (e.set id p).Sound r := by
  intro id' g hg
  rw [process_set] at hg
  split at hg
  · exact hp g hg
  · exact h id' g hg

/-- A grant of the UE may be put on the present process. -/
theorem Sound.store (h : e.Sound r) (hg : g.rnti = r ∧ 0 < g.length) : (e.store g).Sound r :=
  h.set fun _ hp => Option.some.inj hp ▸ hg

/-- A delivered block is forgotten. -/
theorem Sound.acknowledge (h : e.Sound r) : e.acknowledge.Sound r := h.set fun _ hp => by cases hp

/-- To move on forgets nothing and remembers nothing new. -/
theorem Sound.advance (h : e.Sound r) : e.advance.Sound r := h

/-- A failed block stays a block of its UE, wherever it moves. -/
theorem Sound.retry (h : e.Sound r) : e.retry.2.Sound r := by
  unfold UplinkEntity.retry
  dsimp only
  split
  · exact h
  next g hg =>
    have hfree : (e.set e.reported .free).Sound r := h.set fun _ hp => by cases hp
    split
    · exact hfree
    · exact hfree.set fun _ hp => Option.some.inj hp ▸ h _ g hg

/-- After a block was delivered nothing is left of it either. -/
theorem spent_acknowledge : e.acknowledge.Spent := by
  have : e.acknowledge.reported = e.reported := rfl
  rw [Spent, this, acknowledge, process_set, if_pos reported_lt.symm]
  rfl

/-- A failed block does not move an entity on. -/
theorem current_retry (e : UplinkEntity) : e.retry.2.current = e.current := by
  unfold UplinkEntity.retry
  dsimp only
  split
  · rfl
  · split <;> rfl

/-- A block that is retransmitted is moved away from the reported process, and so is one that is
given up. -/
theorem spent_of_retry : e.retry.2.Spent := by
  have hreported : e.retry.2.reported = e.reported := by
    rw [reported, current_retry]
    rfl
  rw [Spent, hreported]
  unfold UplinkEntity.retry
  dsimp only
  split
  next hnone => exact hnone
  next g hg =>
    -- Given up, or stored in the present process, which is another one.
    split
    · rw [process_set, if_pos reported_lt.symm]
      rfl
    · rw [process_set, reported_lt, if_neg reported_ne_current, process_set,
        if_pos reported_lt.symm]
      rfl

/-- What is retransmitted was on the reported process. -/
theorem grant_of_retry (h : e.retry.1 = .again g) : (e.process e.reported).grant = some g := by
  unfold UplinkEntity.retry at h
  dsimp only at h
  split at h
  · cases h
  next g' hg =>
    split at h
    · cases h
    · obtain rfl := Retry.again.inj h
      exact hg

end UplinkEntity

/-- The entity of each UE of a table is sound. -/
def UplinkTable.Sound (ues : Table Rnti UplinkUe) : Prop :=
  ∀ (r : Rnti) (u : UplinkUe), ues[r]? = some u → u.harq.Sound r

namespace UplinkTable.Sound

variable {ues : Table Rnti UplinkUe} {r : Rnti} {u : UplinkUe} {f : UplinkUe → UplinkUe}

theorem empty : Sound ∅ := fun r u h => by simp at h

/-- A table whose new entry is sound. -/
theorem insert (h : Sound ues) (hu : u.harq.Sound r) : Sound (ues.insert r u) := by
  intro r' u' h'
  rw [Std.ExtTreeMap.getElem?_insert] at h'
  split at h'
  next heq =>
    obtain rfl := Option.some.inj h'
    exact Std.compare_eq_iff_eq.1 heq ▸ hu
  next => exact h r' u' h'

theorem erase (h : Sound ues) (r : Rnti) : Sound (ues.erase r) := by
  intro r' u' h'
  rw [Std.ExtTreeMap.getElem?_erase] at h'
  split at h'
  · cases h'
  · exact h r' u' h'

/-- A change of one entry that keeps it sound. -/
theorem modify (h : Sound ues) (hf : ∀ u, u.harq.Sound r → (f u).harq.Sound r) :
    Sound (ues.modify r f) := by
  intro r' u' h'
  rw [Std.ExtTreeMap.getElem?_modify] at h'
  split at h'
  next heq =>
    obtain rfl := Std.compare_eq_iff_eq.1 heq
    obtain ⟨u, hu, rfl⟩ := Option.map_eq_some_iff.1 h'
    exact hf u (h r u hu)
  next => exact h r' u' h'

/-- A change of all entries that keeps each of them sound. -/
theorem map {f : Rnti → UplinkUe → UplinkUe} (h : Sound ues)
    (hf : ∀ r u, u.harq.Sound r → (f r u).harq.Sound r) : Sound (ues.map f) := by
  intro r u' h'
  rw [Std.ExtTreeMap.getElem?_map, Option.map_eq_some_iff] at h'
  obtain ⟨u, hu, rfl⟩ := h'
  exact hf r u (h r u hu)

end UplinkTable.Sound

end LteMac
