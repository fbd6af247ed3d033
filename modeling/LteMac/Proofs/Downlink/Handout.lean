import LteMac.Downlink.NewData
import LteMac.Proofs.Harq.Arena
import LteMac.Proofs.Radio.Bitmap
import LteMac.Proofs.Scheduler.Allotment

/-!
# Handing out downlink blocks

The vocabulary for the passes of a downlink subframe: which process a block or a feedback is on,
whether a block is new or sent again, and what a pass owes to the grid (`Handout`).

Both passes, over the feedback and over the candidates, give groups away and write to the processes,
and the one relies on what the other did. What they share is stated here once: the processes are
sound, which means that a block in flight is remembered under its own UE and number, on some group
at least; and a handout is a step from one occupancy to the next, with the blocks that took what is
gone.

* `DownlinkHarq.Sound`: every block in flight is remembered as it was last sent;
* `Handout.append`: two passes in a row, over different UEs.
-/

namespace LteMac

/-- Whether feedback concerns a process. -/
def HarqFeedback.isOn (f : HarqFeedback) (r : Rnti) (id : Nat) : Bool :=
  f.rnti == r && f.process == id

namespace DataGrant

/-- Whether a block is on a process. -/
def isOn (b : DataGrant) (r : Rnti) (id : Nat) : Bool := b.rnti == r && b.grant.process == id

/-- Whether a block is sent for the first time. -/
def isNew (b : DataGrant) : Bool := b.grant.ndi.contains 1

/-- Whether a block is sent again. -/
def isAgain (b : DataGrant) : Bool := b.grant.ndi.contains 0

/-- A block as it is when sent for the first time: some layers, each of them new and in version 0. A
block that is sent again has the other indicator on every layer, so the two can be told apart by any
of them. -/
structure IsFirst (b : DataGrant) : Prop where
  /-- It has a layer at least. -/
  layers : b.grant.tbs ≠ []
  /-- Every layer is new. -/
  ndi : b.grant.ndi = List.replicate b.grant.tbs.length 1
  /-- Every layer is in version 0. -/
  rv : b.grant.rv = List.replicate b.grant.tbs.length 0

/-- The groups of a block. -/
def rbgs (b : DataGrant) : List Nat := b.grant.bitmap.indices

end DataGrant

/-- Feedback concerns the process that it names, of the UE that it names. -/
theorem HarqFeedback.isOn_iff {f : HarqFeedback} {r : Rnti} {id : Nat} :
    f.isOn r id = true ↔ f.rnti = r ∧ f.process = id := by
  simp [HarqFeedback.isOn]

/-- A block is on the process that its grant names. -/
theorem DataGrant.isOn_iff {b : DataGrant} {r : Rnti} {id : Nat} :
    b.isOn r id = true ↔ b.rnti = r ∧ b.grant.process = id := by
  simp [DataGrant.isOn]

/-- Such a block is marked as new. -/
theorem DataGrant.IsFirst.isNew {b : DataGrant} (h : b.IsFirst) : b.isNew = true := by
  simp [DataGrant.isNew, h.ndi, List.mem_replicate, h.layers]

/-- And it is not marked as sent again. -/
theorem DataGrant.IsFirst.isAgain {b : DataGrant} (h : b.IsFirst) : b.isAgain = false := by
  simp [DataGrant.isAgain, h.ndi, List.mem_replicate]

/-- Every block in flight is remembered as it was last sent, under its UE and process. So a process
that is asked for its block names the UE which it is to be sent to again, and the groups it may be
sent on. -/
structure DownlinkHarq.Sound (h : DownlinkHarq) : Prop where
  /-- Every UE has a slot of its own. -/
  separate : h.Separate
  /-- A process in flight has a grant, which names its UE and itself, and some groups. -/
  carries : ∀ {r : Rnti} {id : Nat} {p : DownlinkProcess}, h.process? r id = some p →
    p.isFree = false → ∃ g, p.grant = some g ∧ g.rnti = r ∧ g.process = id ∧ g.bitmap.indices ≠ []

namespace DownlinkHarq.Sound

variable {h h' : DownlinkHarq} {r : Rnti} {id : Nat}

/-- Nothing is in flight yet. -/
theorem empty : DownlinkHarq.empty.Sound where
  separate := separate_empty
  carries hp := by simp [process?_empty] at hp

/-- An operation is sound if each process that is in flight afterwards was so before with the
same grant, or is fine itself. -/
theorem of_process? (hs : h.Sound) (hsep : h'.Separate)
    (hproc : ∀ {r id p}, h'.process? r id = some p → p.isFree = false →
      (∃ q, h.process? r id = some q ∧ q.isFree = false ∧ p.grant = q.grant) ∨
        ∃ g, p.grant = some g ∧ g.rnti = r ∧ g.process = id ∧ g.bitmap.indices ≠ []) :
    h'.Sound where
  separate := hsep
  carries hp hfree := by
    obtain ⟨q, hq, hqfree, hgrant⟩ | hfine := hproc hp hfree
    · rw [hgrant]
      exact hs.carries hq hqfree
    · exact hfine

/-- The processes of a new UE are free. -/
theorem insert (hs : h.Sound) : (h.insert r).Sound := by
  refine hs.of_process? hs.separate.insert fun hp hfree => ?_
  rw [process?_insert hs.separate] at hp
  split at hp
  · split at hp <;> cases hp
    cases hfree
  · exact .inl ⟨_, hp, hfree, rfl⟩

/-- What is left after a release was sound before. -/
theorem erase (hs : h.Sound) : (h.erase r).Sound := by
  refine hs.of_process? hs.separate.erase fun hp hfree => ?_
  rw [process?_erase hs.separate] at hp
  split at hp
  · cases hp
  · exact .inl ⟨_, hp, hfree, rfl⟩

/-- A block that stays in flight keeps its grant, and a block that is given up is not remembered. -/
theorem refresh (hs : h.Sound) : h.refresh.Sound := by
  refine hs.of_process? hs.separate.refresh fun hp hfree => ?_
  rw [process?_refresh, Option.map_eq_some_iff] at hp
  obtain ⟨q, hq, rfl⟩ := hp
  obtain ⟨hflight, hdue⟩ := DownlinkProcess.waiting_of_age hfree
  exact .inl ⟨q, hq, hflight, by rw [DownlinkProcess.age_of_waiting hflight hdue]⟩

/-- Freeing a process. -/
theorem free (hs : h.Sound) : (h.set r id .free).Sound := by
  refine hs.of_process? hs.separate.set fun hp hfree => ?_
  rw [process?_set hs.separate] at hp
  split at hp
  · obtain ⟨q, -, rfl⟩ := Option.map_eq_some_iff.1 hp
    cases hfree
  · exact .inl ⟨_, hp, hfree, rfl⟩

/-- Noting a block that was just sent. -/
theorem set {p : DownlinkProcess} {g : DownlinkGrant} (hs : h.Sound) (hgrant : p.grant = some g)
    (hrnti : g.rnti = r) (hprocess : g.process = id) (hne : g.bitmap.indices ≠ []) :
    (h.set r id p).Sound := by
  refine hs.of_process? hs.separate.set fun hp hfree => ?_
  rw [process?_set hs.separate] at hp
  split at hp
  next heq =>
    obtain ⟨q, -, rfl⟩ := Option.map_eq_some_iff.1 hp
    exact .inr ⟨g, hgrant, hrnti.trans heq.1.symm, hprocess.trans heq.2.symm, hne⟩
  next => exact .inl ⟨_, hp, hfree, rfl⟩

/-- Moving on to an available process. -/
theorem advance (hs : h.Sound) (hadv : h.advance? r = some (id, h')) : h'.Sound := by
  obtain ⟨hsep, -, hproc⟩ := advance?_eq_some hs.separate hadv
  refine hs.of_process? hsep fun hp hfree => ?_
  rw [hproc] at hp
  split at hp
  · cases hp
    cases hfree
  · exact .inl ⟨_, hp, hfree, rfl⟩

end DownlinkHarq.Sound

/-- A group can be given to a UE if it is free, and if the reuse policy allows it. -/
theorem Retransmission.usable_iff {reuse : ReusePolicy} {o : Occupancy} {r : Rnti} {i : Nat} :
    usable reuse o r i = true ↔ o.isFree i = true ∧ reuse.downlinkAllowed i r = true := by
  simp [usable]

/-- From `o` to `o'`, a pass gave the groups of its blocks away: groups that were free, that the
reuse policy allows the UE, and to one block for each UE. -/
structure Handout (reuse : ReusePolicy) (o o' : Occupancy) (sent : List DataGrant) : Prop where
  /-- The groups of the blocks are what was given away. -/
  allots : o.Allots o' (sent.map (·.rbgs))
  /-- A UE may have the groups of its block. -/
  allowed : ∀ b ∈ sent, ∀ i ∈ b.rbgs, reuse.downlinkAllowed i b.rnti = true
  /-- A grant names the UE that its block is for. -/
  addressed : ∀ b ∈ sent, b.grant.rnti = b.rnti
  /-- No UE is sent two blocks. -/
  nodup : (sent.map (·.rnti)).Nodup

namespace Handout

variable {reuse : ReusePolicy} {o o' o'' : Occupancy} {sent sent' : List DataGrant}

/-- A pass that sends nothing leaves all groups as they are. -/
theorem nil (reuse : ReusePolicy) (o : Occupancy) : Handout reuse o o [] :=
  ⟨.refl o, by simp, by simp, .nil⟩

/-- A second pass that serves other UEs. -/
theorem append (h : Handout reuse o o' sent) (h' : Handout reuse o' o'' sent')
    (hother : ∀ b ∈ sent, ∀ b' ∈ sent', b.rnti ≠ b'.rnti) :
    Handout reuse o o'' (sent ++ sent') where
  allots := by
    rw [List.map_append]
    exact h.allots.trans h'.allots
  allowed := List.forall_mem_append.2 ⟨h.allowed, h'.allowed⟩
  addressed := List.forall_mem_append.2 ⟨h.addressed, h'.addressed⟩
  nodup := by
    rw [List.map_append, List.nodup_append]
    refine ⟨h.nodup, h'.nodup, ?_⟩
    simpa using hother

/-- A pass that sends one block, on the groups `rbgs`. -/
theorem single {b : DataGrant} {rbgs : List Nat} (hsize : o.size ≤ 32)
    (hbitmap : b.grant.bitmap = .ofIndices rbgs) (haddr : b.grant.rnti = b.rnti)
    (hsorted : rbgs.Pairwise (· < ·)) (hne : rbgs ≠ [])
    (hfree : ∀ i ∈ rbgs, o.isFree i = true)
    (hallowed : ∀ i ∈ rbgs, reuse.downlinkAllowed i b.rnti = true) :
    Handout reuse o (o.occupy rbgs) [b] := by
  have hb : b.rbgs = rbgs := by
    rw [DataGrant.rbgs, hbitmap]
    exact RbgBitmap.indices_ofIndices hsorted fun i hi =>
      Nat.lt_of_lt_of_le (Occupancy.lt_size_of_isFree (hfree i hi)) hsize
  refine ⟨?_, by simpa [hb] using hallowed, by simpa using haddr, by simp⟩
  rw [List.map_singleton, hb]
  exact .single hne hfree

end Handout

end LteMac
