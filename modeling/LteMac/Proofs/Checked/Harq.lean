import LteMac.Proofs.Checked.Basic
import LteMac.Proofs.Harq.Arena
import LteMac.Proofs.Harq.Uplink

/-!
# Checked processes

An entity of the downlink is found by the slot that the index names, and a slot is only in the arena
because no operation forgets it: that is `DownlinkHarq.Separate`. The processes of an uplink entity
are found by its cursor, which has to stay below their number.

In the arena there are two places where an index comes from elsewhere. A UE's entity is looked up in
the slot the index has for it, and a slot that was given back is used again for the next UE, from a
list of released ones. Both lie in the arena as long as it never shrinks, which is part of being
`Separate`. Numbers of processes are fixed in both directions, so a process that an entity names is
always there; one that feedback names is looked for, and need not be.

* `DownlinkHarq.Separate` keeps every access to the arena in range: `insertChecked_eq`,
  `eraseChecked_eq`, `setChecked_eq`, `advanceChecked?_eq`, `expiringChecked_eq`;
* `UplinkEntity.retryChecked_eq`, `storeChecked_eq`: a cursor in range does the same for an uplink
  entity;
* `UplinkTable.InRange`: the cursors of all UEs are in range.
-/

namespace LteMac

namespace DownlinkEntity

/-- The first process after the current one that may carry a new block. -/
def nextChecked? (e : DownlinkEntity) : Checked (Option Nat) :=
  e.order.findM? fun id => (·.isAvailable) <$> Checked.readArray e.processes.toArray id

/-- The processes of an entity are gone through in a circle, so each number is one of them. -/
theorem nextChecked?_eq (e : DownlinkEntity) : e.nextChecked? = pure e.next? := by
  refine Checked.findM?_eq fun id hid => ?_
  obtain ⟨step, -, rfl⟩ := List.mem_map.1 hid
  have hlt : (e.current + step) % harqProcesses < harqProcesses := Nat.mod_lt _ (by decide)
  have hread : e.processes.toArray[(e.current + step) % harqProcesses]? =
      some (e.processes[(e.current + step) % harqProcesses]) := by simp [hlt]
  rw [Checked.readArray_eq hread, map_pure, process?, Vector.getElem?_eq_getElem hlt,
    Option.any_some]

end DownlinkEntity

namespace DownlinkHarq

variable {h : DownlinkHarq} {r : Rnti}

/-- The entity of a UE. -/
def entityChecked? (h : DownlinkHarq) (r : Rnti) : Checked (Option DownlinkEntity) :=
  match h.index[r]? with
  | none => pure none
  | some slot => some <$> Checked.readArray h.slots slot

/-- Puts an entity in the slot of a UE. -/
def putChecked (h : DownlinkHarq) (r : Rnti) (e : DownlinkEntity) : Checked DownlinkHarq :=
  match h.index[r]? with
  | none => pure h
  | some slot => (fun slots => { h with slots }) <$> Checked.writeArray h.slots slot e

/-- Gives a UE a fresh entity. -/
def insertChecked (h : DownlinkHarq) (r : Rnti) : Checked DownlinkHarq :=
  match h.index[r]?, h.released with
  | some slot, _ => (fun slots => { h with slots }) <$> Checked.writeArray h.slots slot .fresh
  | none, slot :: rest =>
    (⟨·, h.index.insert r slot, rest⟩) <$> Checked.writeArray h.slots slot .fresh
  | none, [] => pure ⟨h.slots.push .fresh, h.index.insert r h.slots.size, []⟩

/-- Takes the entity of a UE away. -/
def eraseChecked (h : DownlinkHarq) (r : Rnti) : Checked DownlinkHarq :=
  match h.index[r]? with
  | none => pure h
  | some slot =>
    (⟨·, h.index.erase r, slot :: h.released⟩) <$> Checked.writeArray h.slots slot .fresh

/-- A process of a UE. -/
def processChecked? (h : DownlinkHarq) (r : Rnti) (id : Nat) : Checked (Option DownlinkProcess) :=
  (·.bind (·.process? id)) <$> h.entityChecked? r

/-- Puts a process of a UE in the place of another. -/
def setChecked (h : DownlinkHarq) (r : Rnti) (id : Nat) (p : DownlinkProcess) :
    Checked DownlinkHarq := do
  match ← h.entityChecked? r with
  | none => return h
  | some e => h.putChecked r (e.set id p)

/-- Whether a UE has a process that may carry a new block. -/
def isAvailableChecked (h : DownlinkHarq) (r : Rnti) : Checked Bool :=
  (·.any (·.isAvailable)) <$> h.entityChecked? r

/-- Moves a UE on to its next available process. -/
def advanceChecked? (h : DownlinkHarq) (r : Rnti) : Checked (Option (Nat × DownlinkHarq)) := do
  match ← h.entityChecked? r with
  | none => return none
  | some e =>
    match ← e.nextChecked? with
    | none => return none
    | some id => (fun h' => some (id, h')) <$> h.putChecked r (e.assign id)

/-- The processes whose blocks the next subframe gives up. -/
def expiringChecked (h : DownlinkHarq) : Checked (List (Rnti × Nat)) :=
  List.flatten <$> h.index.toList.mapM fun entry =>
    (·.expiring.map fun id => (entry.1, id)) <$> Checked.readArray h.slots entry.2

/-- The slot of a UE is in the arena. -/
theorem entityChecked?_eq (hs : h.Separate) (r : Rnti) :
    h.entityChecked? r = pure (h.entity? r) := by
  unfold entityChecked? entity?
  cases hslot : h.index[r]? with
  | none => rfl
  | some slot =>
    have hread := Array.getElem?_eq_getElem (hs.bound hslot)
    dsimp only
    rw [Checked.readArray_eq hread, map_pure, Option.bind_some, hread]

/-- It can be written. -/
theorem putChecked_eq (hs : h.Separate) (r : Rnti) (e : DownlinkEntity) :
    h.putChecked r e = pure (h.put r e) := by
  unfold putChecked put
  cases hslot : h.index[r]? with
  | none => rfl
  | some slot =>
    dsimp only
    rw [Checked.writeArray_eq (hs.bound hslot), map_pure]

/-- A slot that was given back is in the arena, and if there is none the arena grows. -/
theorem insertChecked_eq (hs : h.Separate) (r : Rnti) :
    h.insertChecked r = pure (h.insert r) := by
  unfold insertChecked insert
  cases hslot : h.index[r]? with
  | some slot =>
    dsimp only
    rw [Checked.writeArray_eq (hs.bound hslot), map_pure]
  | none =>
    cases hreleased : h.released with
    | nil => rfl
    | cons slot rest =>
      have hlt := hs.releasedBound slot (hreleased ▸ List.mem_cons_self)
      dsimp only
      rw [Checked.writeArray_eq hlt, map_pure]

/-- A UE that goes leaves a slot of the arena. -/
theorem eraseChecked_eq (hs : h.Separate) (r : Rnti) : h.eraseChecked r = pure (h.erase r) := by
  unfold eraseChecked erase
  cases hslot : h.index[r]? with
  | none => rfl
  | some slot =>
    dsimp only
    rw [Checked.writeArray_eq (hs.bound hslot), map_pure]

/-- A process is looked for in an entity that is found. -/
theorem processChecked?_eq (hs : h.Separate) (r : Rnti) (id : Nat) :
    h.processChecked? r id = pure (h.process? r id) := by
  rw [processChecked?, entityChecked?_eq hs, map_pure, process?]

/-- It is written to an entity that is found. -/
theorem setChecked_eq (hs : h.Separate) (r : Rnti) (id : Nat) (p : DownlinkProcess) :
    h.setChecked r id p = pure (h.set r id p) := by
  rw [setChecked, entityChecked?_eq hs, pure_bind, set]
  cases h.entity? r with
  | none => rfl
  | some e => exact putChecked_eq hs r _

/-- Whether a process is available is looked up in an entity that is found. -/
theorem isAvailableChecked_eq (hs : h.Separate) (r : Rnti) :
    h.isAvailableChecked r = pure (h.isAvailable r) := by
  rw [isAvailableChecked, entityChecked?_eq hs, map_pure, isAvailable]

/-- The next process is one of the entity. -/
theorem advanceChecked?_eq (hs : h.Separate) (r : Rnti) :
    h.advanceChecked? r = pure (h.advance? r) := by
  rw [advanceChecked?, entityChecked?_eq hs, pure_bind, advance?]
  cases h.entity? r with
  | none => rfl
  | some e =>
    dsimp only
    rw [DownlinkEntity.nextChecked?_eq, pure_bind]
    cases hnext : e.next? with
    | none => simp [hnext]
    | some id =>
      dsimp only
      rw [putChecked_eq hs, map_pure]
      simp [hnext]

/-- All entities that the index names are found. -/
theorem expiringChecked_eq (hs : h.Separate) : h.expiringChecked = pure h.expiring := by
  have hread : ∀ entry ∈ h.index.toList,
      ((·.expiring.map fun id => (entry.1, id)) <$> Checked.readArray h.slots entry.2 :
        Checked (List (Rnti × Nat))) =
        pure (((h.entity? entry.1).elim [] (·.expiring)).map fun id => (entry.1, id)) := by
    intro entry hentry
    have hslot := Std.ExtTreeMap.mem_toList_iff_getElem?_eq_some.1 hentry
    have hfound := Array.getElem?_eq_getElem (hs.bound hslot)
    rw [Checked.readArray_eq hfound, map_pure, entity?, hslot, Option.bind_some, hfound,
      Option.elim_some]
  rw [expiringChecked, Checked.mapM_eq hread, map_pure, expiring, List.flatMap,
    ← Std.ExtTreeMap.map_fst_toList_eq_keys, List.map_map]
  rfl

end DownlinkHarq

namespace UplinkEntity

variable {e : UplinkEntity}

/-- A process by its number. -/
def processChecked (e : UplinkEntity) (id : Nat) : Checked UplinkProcess :=
  Checked.readArray e.processes.toArray id

/-- Puts a process in the place of another. -/
def setChecked (e : UplinkEntity) (id : Nat) (p : UplinkProcess) : Checked UplinkEntity := do
  Checked.checkIndex uplinkProcesses id
  return e.set id p

/-- Notes a first transmission in the present subframe. -/
def storeChecked (e : UplinkEntity) (grant : UplinkGrant) : Checked UplinkEntity :=
  e.setChecked e.current ⟨0, some grant⟩

/-- Handles a failed block. -/
def retryChecked (e : UplinkEntity) : Checked (Retry × UplinkEntity) := do
  let p ← e.processChecked e.reported
  match p.grant with
  | none => return (.noBlock, e)
  | some grant =>
    let freed ← e.setChecked e.reported .free
    if maxRetransmissions ≤ p.attempts then return (.dropped, freed)
    else return (.again grant, ← freed.setChecked e.current ⟨p.attempts + 1, some grant⟩)

/-- Handles a delivered block. -/
def acknowledgeChecked (e : UplinkEntity) : Checked UplinkEntity := e.setChecked e.reported .free

/-- The process that is reported on is a number modulo their number. -/
theorem reported_lt_processes (e : UplinkEntity) : e.reported < uplinkProcesses :=
  Nat.mod_lt _ (by decide)

/-- A process by a number in range. -/
theorem processChecked_eq {id : Nat} (h : id < uplinkProcesses) :
    e.processChecked id = pure (e.process id) := by
  refine Checked.readArray_eq ?_
  simp only [process, Nat.mod_eq_of_lt h]
  simp [h, Vector.get]

/-- A process by a number in range can be written. -/
theorem setChecked_eq {id : Nat} (h : id < uplinkProcesses) (p : UplinkProcess) :
    e.setChecked id p = pure (e.set id p) := by
  rw [setChecked, Checked.checkIndex_eq h, pure_bind]

/-- The present process can be written, if the cursor is in range. -/
theorem storeChecked_eq (h : e.current < uplinkProcesses) (grant : UplinkGrant) :
    e.storeChecked grant = pure (e.store grant) := setChecked_eq h _

/-- A failed block is taken from the reported process to the present one. -/
theorem retryChecked_eq (h : e.current < uplinkProcesses) : e.retryChecked = pure e.retry := by
  rw [retryChecked, processChecked_eq e.reported_lt_processes, pure_bind, retry]
  cases (e.process e.reported).grant with
  | none => rfl
  | some grant =>
    dsimp only
    rw [setChecked_eq e.reported_lt_processes, pure_bind]
    split
    · rfl
    · rw [setChecked_eq h, pure_bind]

/-- The reported process can be freed. -/
theorem acknowledgeChecked_eq (e : UplinkEntity) : e.acknowledgeChecked = pure e.acknowledge :=
  setChecked_eq e.reported_lt_processes _

end UplinkEntity

/-- The cursor of every uplink entity of a table points at a process. -/
def UplinkTable.InRange (ues : Table Rnti UplinkUe) : Prop :=
  ∀ (r : Rnti) (u : UplinkUe), ues[r]? = some u → u.harq.current < uplinkProcesses

namespace UplinkTable.InRange

variable {ues : Table Rnti UplinkUe} {r : Rnti} {u : UplinkUe} {f : UplinkUe → UplinkUe}

/-- One more record with its cursor in range. -/
theorem insert (h : InRange ues) (hu : u.harq.current < uplinkProcesses) :
    InRange (ues.insert r u) := by
  intro r' u' hu'
  rw [Table.getElem?_insert] at hu'
  split at hu'
  · obtain rfl := Option.some.inj hu'
    exact hu
  · exact h r' u' hu'

/-- A change of a record that keeps its cursor in range. -/
theorem modify (h : InRange ues) (hf : ∀ u : UplinkUe, u.harq.current < uplinkProcesses →
    (f u).harq.current < uplinkProcesses) : InRange (ues.modify r f) := by
  intro r' u' hu'
  rw [Table.getElem?_modify] at hu'
  split at hu'
  · obtain ⟨u, hu, rfl⟩ := Option.map_eq_some_iff.1 hu'
    exact hf u (h r u hu)
  · exact h r' u' hu'

end UplinkTable.InRange

end LteMac
