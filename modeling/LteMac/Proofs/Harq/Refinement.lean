import LteMac.Proofs.Harq.Arena

/-!
# The arena as a plain table

Whatever is done to the arena, it cannot be told from a table of entities by UE that has no slots at
all: an added UE gets a fresh entity, a released one has none, and no process of one UE ever shows
up at another one, in whichever order the slots were handed out again. At any moment every slot
belongs to exactly one UE or waits to be handed out again (`DownlinkHarq.Tiled`).

This is a simulation between two programs that take the same operations. The table does to the
entity of one UE what the arena does to the slot of that UE, and the relation between them
(`DownlinkHarq.Holds`) is that the UE has the same entity in both. It is kept by each operation
because different UEs have different slots, which is itself kept by each operation. In the end
nothing is said of slots any more: what the arena answers to any question is the answer of the
table.

* `DownlinkHarq.Tiled.apply`: no operation loses a slot or gives it away twice;
* `DownlinkHarq.entity?_apply`: every operation does to each UE what it does to the table;
* `DownlinkEntity.next?_eq_some_iff`: the process a UE moves on to is the first available one,
  cyclically after its current one;
* `DownlinkHarq.refines_table`: after any operations, the arena answers as the table does.
-/

namespace LteMac

/-- An operation on the processes of all UEs. -/
inductive HarqOp where
  /-- A UE gets its processes, all of them free. -/
  | insert (rnti : Rnti)
  /-- A UE loses its processes. -/
  | erase (rnti : Rnti)
  /-- A UE moves on to its next available process. -/
  | advance (rnti : Rnti)
  /-- A subframe goes by without feedback. -/
  | refresh
  /-- A process of a UE changes in some way. -/
  | revise (rnti : Rnti) (id : Nat) (f : DownlinkProcess → DownlinkProcess)

namespace DownlinkEntity

variable {e : DownlinkEntity} {id : Nat}

/-- Whether a process may carry a new block. -/
def MayCarry (e : DownlinkEntity) (id : Nat) : Prop :=
  ∃ p, e.process? id = some p ∧ p.isAvailable = true

/-- A process is the first one after the current one, cyclically, that may carry a new block. -/
def ComesNext (e : DownlinkEntity) (id : Nat) : Prop :=
  ∃ step, 1 ≤ step ∧ step ≤ harqProcesses ∧ id = (e.current + step) % harqProcesses ∧
    e.MayCarry id ∧
    ∀ earlier, 1 ≤ earlier → earlier < step →
      ¬e.MayCarry ((e.current + earlier) % harqProcesses)

/-- The entity after its UE moved on, if there is a process to move on to. -/
def advance (e : DownlinkEntity) : DownlinkEntity := e.next?.elim e e.assign

/-- The entity after one of its processes changed. -/
def revise (e : DownlinkEntity) (id : Nat) (f : DownlinkProcess → DownlinkProcess) :
    DownlinkEntity :=
  (e.process? id).elim e fun p => e.set id (f p)

/-- A process may carry a new block if it exists and is available. -/
theorem mayCarry_iff : (e.process? id).any (·.isAvailable) = true ↔ e.MayCarry id :=
  Option.any_eq_true ..

/-- The process a UE moves on to is the first available one, cyclically after its current one. -/
theorem next?_eq_some_iff : e.next? = some id ↔ e.ComesNext id := by
  rw [next?, order, List.find?_map, Option.map_eq_some_iff]
  refine exists_congr fun step => ?_
  rw [List.find?_range'_eq_some, List.mem_range'_1, Function.comp_apply, mayCarry_iff]
  constructor
  · rintro ⟨⟨hcarry, ⟨hpos, hle⟩, hearlier⟩, rfl⟩
    refine ⟨hpos, by omega, rfl, hcarry, fun earlier hfrom hto hmay => ?_⟩
    have hnone := hearlier earlier hfrom hto
    rw [Function.comp_apply, mayCarry_iff.2 hmay] at hnone
    cases hnone
  · rintro ⟨hpos, hle, rfl, hcarry, hearlier⟩
    refine ⟨⟨hcarry, ⟨hpos, by omega⟩, fun earlier hfrom hto => ?_⟩, rfl⟩
    rw [Function.comp_apply, Bool.not_eq_true', Bool.eq_false_iff]
    exact fun hmay => hearlier earlier hfrom hto (mayCarry_iff.1 hmay)

/-- The processes given up are listed in ascending order. -/
theorem pairwise_expiring (e : DownlinkEntity) : e.expiring.Pairwise (· < ·) :=
  List.Pairwise.filter _ List.pairwise_lt_range

end DownlinkEntity

/-! ## The table -/

/-- The entities by UE. -/
abbrev HarqTable := Table Rnti DownlinkEntity

namespace HarqTable

/-- A process of a UE. -/
def process? (t : HarqTable) (r : Rnti) (id : Nat) : Option DownlinkProcess :=
  t[r]?.bind (·.process? id)

/-- Whether a UE has a process that may carry a new block. -/
def isAvailable (t : HarqTable) (r : Rnti) : Bool := t[r]?.any (·.isAvailable)

/-- The processes whose blocks the next subframe gives up. -/
def expiring (t : HarqTable) : List (Rnti × Nat) :=
  t.keys.flatMap fun r => (t[r]?.elim [] (·.expiring)).map fun id => (r, id)

/-- The table after an operation. -/
def apply (t : HarqTable) : HarqOp → HarqTable
  | .insert r => t.insert r .fresh
  | .erase r => t.erase r
  | .advance r => t.modify r (·.advance)
  | .refresh => t.map fun _ e => e.age
  | .revise r id f => t.modify r (·.revise id f)

/-- The table after some operations on the empty one. -/
def after (ops : List HarqOp) : HarqTable := ops.foldl apply ∅

end HarqTable

namespace DownlinkHarq

variable {h : DownlinkHarq} {r r' : Rnti} {e : DownlinkEntity} {id : Nat} {p : DownlinkProcess}

/-- The arena after an operation. -/
def apply (h : DownlinkHarq) : HarqOp → DownlinkHarq
  | .insert r => h.insert r
  | .erase r => h.erase r
  | .advance r => (h.advance? r).elim h (·.2)
  | .refresh => h.refresh
  | .revise r id f => (h.process? r id).elim h fun p => h.set r id (f p)

/-- The arena after some operations on the empty one. -/
def after (ops : List HarqOp) : DownlinkHarq := ops.foldl apply empty

/-! ## Slots -/

/-- Every slot belongs to exactly one UE, or waits to be handed out again. -/
structure Tiled (h : DownlinkHarq) : Prop extends h.Separate where
  /-- No slot is lost. -/
  covered : ∀ slot < h.slots.size, slot ∈ h.released ∨ ∃ r : Rnti, h.index[r]? = some slot

/-- Without slots there is nothing to cover. -/
theorem tiled_empty : empty.Tiled where
  toSeparate := separate_empty
  covered _ hslot := absurd hslot (Nat.not_lt_zero _)

/-- An arena whose slots are in the same hands. -/
theorem Tiled.congr {h' : DownlinkHarq} (ht : h.Tiled) (hs : h'.Separate)
    (hsize : h'.slots.size = h.slots.size) (hindex : h'.index = h.index)
    (hreleased : h'.released = h.released) : h'.Tiled where
  toSeparate := hs
  covered := by
    rw [hsize, hindex, hreleased]
    exact ht.covered

/-- A change of an entity does not move its slot. -/
theorem Tiled.put (ht : h.Tiled) : (h.put r e).Tiled := by
  have hs : (h.put r e).Separate := ht.toSeparate.put
  rw [DownlinkHarq.put] at hs ⊢
  split at hs
  · exact ht
  · exact ht.congr hs Array.size_setIfInBounds rfl rfl

/-- Nor does a change of a process. -/
theorem Tiled.set (ht : h.Tiled) : (h.set r id p).Tiled := by
  rw [DownlinkHarq.set]
  split
  · exact ht
  · exact ht.put

/-- A new UE gets a released slot, or one more. -/
theorem Tiled.insert (ht : h.Tiled) : (h.insert r).Tiled := by
  have hs : (h.insert r).Separate := ht.toSeparate.insert
  rw [DownlinkHarq.insert] at hs ⊢
  split at hs
  next slot _ hslot => exact ht.congr hs Array.size_setIfInBounds rfl rfl
  next slot rest hnone hrel =>
    refine ⟨hs, fun i hi => ?_⟩
    rcases ht.covered i (Array.size_setIfInBounds ▸ hi) with hwaiting | ⟨r', hr'⟩
    · -- The slot handed out is the new UE's; the others still wait.
      rcases List.mem_cons.1 (hrel ▸ hwaiting) with rfl | hrest
      · exact .inr ⟨r, by simp⟩
      · exact .inl hrest
    · have hne : r' ≠ r := fun heq => by simp [heq, hnone] at hr'
      exact .inr ⟨r', by rw [Table.getElem?_insert, if_neg hne, hr']⟩
  next hnone hrel =>
    refine ⟨hs, fun i hi => ?_⟩
    rcases Nat.lt_succ_iff_lt_or_eq.1 (Array.size_push .. ▸ hi) with hold | rfl
    · rcases ht.covered i hold with hwaiting | ⟨r', hr'⟩
      · exact absurd (hrel ▸ hwaiting) List.not_mem_nil
      · have hne : r' ≠ r := fun heq => by simp [heq, hnone] at hr'
        exact .inr ⟨r', by rw [Table.getElem?_insert, if_neg hne, hr']⟩
    · exact .inr ⟨r, by simp⟩

/-- The slot of a UE that is gone waits to be handed out again. -/
theorem Tiled.erase (ht : h.Tiled) : (h.erase r).Tiled := by
  have hs : (h.erase r).Separate := ht.toSeparate.erase
  rw [DownlinkHarq.erase] at hs ⊢
  split at hs
  · exact ht
  next slot hslot =>
    refine ⟨hs, fun i hi => ?_⟩
    rcases ht.covered i (Array.size_setIfInBounds ▸ hi) with hwaiting | ⟨r', hr'⟩
    · exact .inl (List.mem_cons_of_mem _ hwaiting)
    · by_cases heq : r' = r
      · obtain rfl := Option.some.inj (hslot.symm.trans (heq ▸ hr'))
        exact .inl List.mem_cons_self
      · exact .inr ⟨r', by rw [Table.getElem?_erase, if_neg heq, hr']⟩

/-- A subframe changes the entities only. -/
theorem Tiled.refresh (ht : h.Tiled) : h.refresh.Tiled :=
  ht.congr ht.toSeparate.refresh Array.size_map rfl rfl

/-- No operation loses a slot or gives it away twice. -/
theorem Tiled.apply (ht : h.Tiled) (op : HarqOp) : (h.apply op).Tiled := by
  rcases op with r | r | r | _ | ⟨r, id, f⟩
  · exact ht.insert
  · exact ht.erase
  · rw [DownlinkHarq.apply]
    rcases hadv : h.advance? r with _ | ⟨id, h'⟩
    · exact ht
    · obtain ⟨e, -, -, rfl⟩ := advance?_eq_some_iff.1 hadv
      exact ht.put
  · exact ht.refresh
  · rw [DownlinkHarq.apply]
    rcases h.process? r id with _ | p
    · exact ht
    · exact ht.set

/-- So it is after any operations. -/
theorem tiled_after (ops : List HarqOp) : (after ops).Tiled := by
  induction ops using List.reverseRecOn with
  | nil => exact tiled_empty
  | append_singleton ops op ih =>
    rw [after, List.foldl_append]
    exact ih.apply op

/-! ## Entities -/

/-- The arena holds the entities of a table. -/
def Holds (h : DownlinkHarq) (t : HarqTable) : Prop := ∀ r, h.entity? r = t[r]?

section Holds

variable {t : HarqTable}

/-- A UE that moves on has its entity changed, and no other UE has. -/
theorem entity?_advance (hs : h.Separate) :
    ((h.advance? r).elim h (·.2)).entity? r' =
      if r' = r then (h.entity? r).map (·.advance) else h.entity? r' := by
  rcases hadv : h.advance? r with _ | ⟨id, h'⟩
  · -- There is no process to move on to, so the entity stays what it is.
    split
    next heq =>
      subst heq
      rcases he : h.entity? r' with _ | e
      · exact he
      · have hnext : e.next? = none := by
          refine Option.eq_none_iff_forall_ne_some.2 fun id hid => ?_
          rw [advance?_eq_some_iff.2 ⟨e, he, hid, rfl⟩] at hadv
          cases hadv
        rw [Option.elim_none, he, Option.map_some, DownlinkEntity.advance, hnext, Option.elim_none]
    next => rfl
  · obtain ⟨e, he, hnext, rfl⟩ := advance?_eq_some_iff.1 hadv
    rw [Option.elim_some, entity?_put hs, he, Option.map_some, Option.map_some,
      DownlinkEntity.advance, hnext, Option.elim_some]

/-- A process that changes is a change of the entity of its UE. -/
theorem entity?_revise (hs : h.Separate) (f : DownlinkProcess → DownlinkProcess) :
    ((h.process? r id).elim h fun p => h.set r id (f p)).entity? r' =
      if r' = r then (h.entity? r).map (·.revise id f) else h.entity? r' := by
  rcases he : h.entity? r with _ | e
  · rw [process?, he, Option.bind_none, Option.elim_none, Option.map_none]
    split
    next heq => rw [heq, he]
    next => rfl
  · rw [process?, he, Option.bind_some, Option.map_some, DownlinkEntity.revise]
    rcases e.process? id with _ | p
    · split
      next heq => rw [heq, Option.elim_none, he, Option.elim_none]
      next => rfl
    · rw [Option.elim_some, Option.elim_some, set, he, entity?_put hs, he, Option.map_some]

/-- Each operation does to the arena what it does to the table. -/
theorem Holds.apply (hs : h.Separate) (ht : h.Holds t) (op : HarqOp) :
    (h.apply op).Holds (t.apply op) := by
  intro r'
  rcases op with r | r | r | _ | ⟨r, id, f⟩
  · rw [DownlinkHarq.apply, HarqTable.apply, entity?_insert hs, Table.getElem?_insert, ht r']
  · rw [DownlinkHarq.apply, HarqTable.apply, entity?_erase hs, Table.getElem?_erase, ht r']
  · rw [DownlinkHarq.apply, HarqTable.apply, entity?_advance hs, Table.getElem?_modify, ht r,
      ht r']
  · rw [DownlinkHarq.apply, HarqTable.apply, entity?_refresh, Std.ExtTreeMap.getElem?_map, ht r']
  · rw [DownlinkHarq.apply, HarqTable.apply, entity?_revise hs, Table.getElem?_modify, ht r,
      ht r']

/-- After any operations, the arena holds the entities of the table. -/
theorem holds_after (ops : List HarqOp) : (after ops).Holds (HarqTable.after ops) := by
  induction ops using List.reverseRecOn with
  | nil => exact fun r => by simp [after, HarqTable.after, entity?, empty]
  | append_singleton ops op ih =>
    rw [after, HarqTable.after, List.foldl_append, List.foldl_append]
    exact ih.apply (tiled_after ops).toSeparate op

/-! ## Answers -/

/-- The arena cannot be told from a table by what it answers. -/
structure Mirrors (h : DownlinkHarq) (t : HarqTable) : Prop where
  /-- They know the same UEs. -/
  contains : ∀ r, h.contains r = t.contains r
  /-- They know equally many UEs. -/
  size : h.size = t.size
  /-- Each process is the same. -/
  process : ∀ r id, h.process? r id = t.process? r id
  /-- The same UEs have a process for a new block. -/
  isAvailable : ∀ r, h.isAvailable r = t.isAvailable r
  /-- A UE moves on to the same process. -/
  advance : ∀ r, (h.advance? r).map (·.1) = t[r]?.bind (·.next?)
  /-- The same blocks are given up next. -/
  expiring : h.expiring = t.expiring

/-- The UEs with a slot are those of the table. -/
theorem Holds.keys (hs : h.Separate) (ht : h.Holds t) : h.index.keys = t.keys :=
  Table.keys_congr fun r => by rw [hs.mem_index, ht r, Std.ExtTreeMap.mem_iff_isSome_getElem?]

/-- An arena that holds the entities of a table answers as the table does. -/
theorem Holds.mirrors (hs : h.Separate) (ht : h.Holds t) : h.Mirrors t where
  contains r := by
    rw [Bool.eq_iff_iff, contains, Std.ExtTreeMap.contains_iff_mem, hs.mem_index, ht r,
      ← Std.ExtTreeMap.contains_eq_isSome_getElem?]
  size := by
    rw [size, ← Std.ExtTreeMap.length_keys, ht.keys hs, Std.ExtTreeMap.length_keys]
  process r id := by rw [process?, ht r, HarqTable.process?]
  isAvailable r := by rw [isAvailable, ht r, HarqTable.isAvailable]
  advance r := by
    refine Option.ext fun id => ?_
    rw [Option.map_eq_some_iff, Prod.exists, Option.bind_eq_some_iff]
    simp only [advance?_eq_some_iff, ht r]
    grind
  expiring := by
    simp only [expiring, HarqTable.expiring, ht.keys hs, ht _]

/-- The processes given up are listed by UE, then number, in ascending order. -/
theorem pairwise_expiring (h : DownlinkHarq) :
    h.expiring.Pairwise fun x y => x.1 < y.1 ∨ x.1 = y.1 ∧ x.2 < y.2 := by
  refine List.pairwise_flatMap.2 ⟨fun r _ => ?_, ?_⟩
  · refine List.pairwise_map.2 (List.Pairwise.imp (fun hlt => .inr ⟨rfl, hlt⟩) ?_)
    rcases h.entity? r with _ | e
    · exact .nil
    · exact e.pairwise_expiring
  · refine h.index.pairwise_keys.imp fun hlt x hx y hy => .inl ?_
    obtain ⟨id, -, rfl⟩ := List.mem_map.1 hx
    obtain ⟨id', -, rfl⟩ := List.mem_map.1 hy
    exact hlt

/-- The process that a UE moves on to is the one that comes next in its entity. -/
theorem Holds.exists_advance?_iff (ht : h.Holds t) :
    (∃ h', h.advance? r = some (id, h')) ↔ ∃ e, t[r]? = some e ∧ e.ComesNext id := by
  constructor
  · rintro ⟨h', hadv⟩
    obtain ⟨e, he, hnext, -⟩ := advance?_eq_some_iff.1 hadv
    exact ⟨e, (ht r).symm.trans he, DownlinkEntity.next?_eq_some_iff.1 hnext⟩
  · rintro ⟨e, he, hnext⟩
    have he : h.entity? r = some e := (ht r).trans he
    exact ⟨_, advance?_eq_some_iff.2 ⟨e, he, DownlinkEntity.next?_eq_some_iff.2 hnext, rfl⟩⟩

end Holds

/-- A UE has an available process if it can move on to one. -/
theorem isAvailable_iff_exists_advance? (hs : h.Separate) :
    h.isAvailable r = true ↔ ∃ id h', h.advance? r = some (id, h') := by
  constructor
  · intro hav
    obtain ⟨⟨id, h'⟩, hadv⟩ := exists_advance? hav
    exact ⟨id, h', hadv⟩
  · rintro ⟨id, h', hadv⟩
    obtain ⟨-, ⟨p, hp, hav⟩, -⟩ := advance?_eq_some hs hadv
    exact isAvailable_iff.2 ⟨id, p, hp, hav⟩

/-- After any operations, every slot belongs to one UE or waits to be handed out again, and the
arena answers as a plain table of entities does. A UE has a process that may carry a new block
exactly if it can move on, and it moves on to the first such process, cyclically after its current
one. -/
theorem refines_table (ops : List HarqOp) :
    (after ops).Tiled ∧ (after ops).Mirrors (HarqTable.after ops) ∧
      ((after ops).expiring.Pairwise fun x y => x.1 < y.1 ∨ x.1 = y.1 ∧ x.2 < y.2) ∧
      ∀ r, ((after ops).isAvailable r = true ↔ ∃ id h', (after ops).advance? r = some (id, h')) ∧
        ∀ id, (∃ h', (after ops).advance? r = some (id, h')) ↔
          ∃ e, (HarqTable.after ops)[r]? = some e ∧ e.ComesNext id := by
  have htiled := tiled_after ops
  have hholds := holds_after ops
  exact ⟨htiled, hholds.mirrors htiled.toSeparate, pairwise_expiring _, fun r =>
    ⟨isAvailable_iff_exists_advance? htiled.toSeparate, fun id => hholds.exists_advance?_iff⟩⟩

end DownlinkHarq

end LteMac
