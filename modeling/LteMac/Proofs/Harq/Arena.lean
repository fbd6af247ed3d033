import LteMac.Harq.Downlink
import LteMac.Proofs.Radio.Table

/-!
# The arena of downlink processes

The processes of all UEs share one array of slots, and released slots are handed out again. As long
as no two UEs have the same slot (`DownlinkHarq.Separate`, which every operation keeps), the sharing
cannot be seen from outside: the arena is a table of entities by UE, and each operation changes the
entity of its UE and no other.

Two things have to be excluded. A slot could belong to two UEs at once, so that a block of the one
would answer for the other; and a slot could wait to be handed out while a UE still has it, or wait
twice, which comes to the same one request later. `Separate` says that neither is so, together with
the bounds without which a look into the array would find nothing. It is proved in the order of the
operations: an operation that writes a slot of a UE (`put`, and `set`, `advance?` and `refresh`
through it) leaves the index alone, so only `insert` and `erase` have something to show.

What an operation does is then said three times, each time for a larger reader: to the entity of a
UE (`entity?_insert` and its like), to who has an entity at all (`mem_index_insert`), and to a
single process (`process?_insert`). The invariants of the scheduler only use the last two.

* `DownlinkHarq.Separate.insert`, `erase`, `set`, `refresh`: the slots stay separate;
* `DownlinkHarq.mem_index_insert`, `mem_index_erase`: only these two change who has an entity;

* `DownlinkHarq.process?_insert`, `process?_erase`, `process?_set`, `process?_refresh`,
  `advance?_eq_some`: what each operation does to the processes;
* `DownlinkHarq.mem_expiring`: which processes the next subframe gives up.
-/

namespace LteMac

namespace DownlinkProcess

variable {p : DownlinkProcess}

/-- Nothing ages on a free process. -/
theorem age_of_isFree (h : p.isFree = true) : p.age = p := if_pos h

/-- A block whose feedback is overdue is given up, and its process is free again. -/
theorem age_of_isOverdue (h : p.isOverdue = true) : p.age = free := by
  have hflight : p.isFree = false := by
    simp only [isOverdue, Bool.and_eq_true, bne_iff_ne] at h
    simpa [isFree] using h.1
  simp [age, hflight, h]

/-- A block stays in flight over a subframe as long as its feedback is not overdue. -/
theorem age_of_waiting (hflight : p.isFree = false) (hdue : p.isOverdue = false) :
    p.age = { p with timer := p.timer + 1 } := by
  simp [age, hflight, hdue]

/-- What is in flight after a subframe was in flight before. -/
theorem waiting_of_age (h : p.age.isFree = false) : p.isFree = false ∧ p.isOverdue = false := by
  cases hflight : p.isFree with
  | true => rw [age_of_isFree hflight, hflight] at h; cases h
  | false =>
    cases hdue : p.isOverdue with
    | true => rw [age_of_isOverdue hdue] at h; cases h
    | false => exact ⟨rfl, rfl⟩

/-- A process in flight may carry a new block only if its feedback is overdue. -/
theorem isOverdue_of_isAvailable (hav : p.isAvailable = true) (hflight : p.isFree = false) :
    p.isOverdue = true := by
  simp only [isAvailable, isFree, isOverdue] at *
  simp_all

end DownlinkProcess

namespace DownlinkEntity

variable {e : DownlinkEntity} {id id' : Nat} {p : DownlinkProcess}

theorem process?_set :
    (e.set id p).process? id' =
      if id' = id then (e.process? id).map fun _ => p else e.process? id' := by
  simp only [process?, set, Vector.getElem?_setIfInBounds]
  grind

/-- All processes of a UE age at once, each by itself. -/
theorem process?_age : e.age.process? id = (e.process? id).map (·.age) := by
  simp [process?, age]

/-- The processes of a new UE are there from the start, and all of them are free. -/
theorem process?_fresh :
    fresh.process? id = if id < harqProcesses then some .free else none := by
  simp [process?, fresh, Vector.getElem?_replicate]

/-- There are no processes but the numbered ones. -/
theorem lt_of_process? (h : e.process? id = some p) : id < harqProcesses :=
  (Vector.getElem?_eq_some_iff.1 h).1

/-- The process found for a new block may carry one. -/
theorem available_of_next? (h : e.next? = some id) :
    ∃ p, e.process? id = some p ∧ p.isAvailable = true :=
  (Option.any_eq_true _ _).1 (List.find?_some (p := fun id => (e.process? id).any _) h)

/-- A process that may carry a new block is found. -/
theorem exists_next? (h : e.process? id = some p) (hav : p.isAvailable = true) :
    ∃ id, e.next? = some id := by
  have hlt := lt_of_process? h
  have hmem : id ∈ e.order := by
    refine List.mem_map.2 ⟨(id + harqProcesses - e.current % harqProcesses - 1) % harqProcesses + 1,
      List.mem_range'_1.2 ?_, ?_⟩
    · simp only [harqProcesses]
      omega
    · simp only [harqProcesses] at *
      omega
  refine Option.isSome_iff_exists.1 (List.find?_isSome.2 ⟨id, hmem, ?_⟩)
  rw [h]
  exact hav

/-- A UE can be sent a new block if one of its processes may carry it. -/
theorem isAvailable_iff :
    e.isAvailable = true ↔ ∃ id p, e.process? id = some p ∧ p.isAvailable = true := by
  simp only [isAvailable, process?, List.any_eq_true, Vector.mem_toList_iff]
  constructor
  · rintro ⟨p, hp, hav⟩
    obtain ⟨id, hid, rfl⟩ := Vector.getElem_of_mem hp
    exact ⟨id, _, Vector.getElem?_eq_getElem hid, hav⟩
  · rintro ⟨id, p, hp, hav⟩
    exact ⟨p, Vector.mem_of_getElem? hp, hav⟩

/-- The processes of a UE that are given up are those whose feedback is overdue. -/
theorem mem_expiring :
    id ∈ e.expiring ↔ ∃ p, e.process? id = some p ∧ p.isOverdue = true := by
  simp only [expiring, List.mem_filter, List.mem_range, Option.any_eq_true]
  refine and_iff_right_of_imp ?_
  rintro ⟨p, hp, -⟩
  exact lt_of_process? hp

end DownlinkEntity

namespace DownlinkHarq

/-- No two UEs have the same slot, and a released slot belongs to nobody. The slots that are to be
handed out again are in the array, wait once each, and are in no UE's hands; so the next UE that is
given one of them is the only one that has it. -/
structure Separate (h : DownlinkHarq) : Prop where
  /-- Every UE in the index has its slot in the array. -/
  bound : ∀ {r : Rnti} {slot : Nat}, h.index[r]? = some slot → slot < h.slots.size
  /-- Different UEs have different slots. -/
  injective : ∀ {r r' : Rnti} {slot : Nat},
    h.index[r]? = some slot → h.index[r']? = some slot → r = r'
  /-- Released slots are in the array. -/
  releasedBound : ∀ slot ∈ h.released, slot < h.slots.size
  /-- A released slot is in nobody's hands. -/
  released : ∀ slot ∈ h.released, ∀ r : Rnti, h.index[r]? ≠ some slot
  /-- A slot is not released twice. -/
  nodup : h.released.Nodup

/-- Nobody has a slot yet. -/
theorem separate_empty : empty.Separate where
  bound h := by simp [empty] at h
  injective h := by simp [empty] at h
  releasedBound := by simp [empty]
  released := by simp [empty]
  nodup := .nil

variable {h : DownlinkHarq} {r r' : Rnti} {id id' : Nat} {e : DownlinkEntity}
  {p : DownlinkProcess}

/-! ## Entities -/

/-- Writing a slot does not touch the UEs that have another one. -/
theorem entity?_of_ne {slots : Array DownlinkEntity} {slot : Nat}
    (hne : h.index[r]? ≠ some slot) :
    (h.index[r]?.bind fun i => (slots.setIfInBounds slot e)[i]?) =
      h.index[r]?.bind fun i => slots[i]? := by
  cases hr : h.index[r]? with
  | none => rfl
  | some i =>
    have : slot ≠ i := fun heq => hne (heq ▸ hr)
    simp [this]

/-- To write an entity back changes no slot's owner. -/
theorem Separate.put (hs : h.Separate) : (h.put r e).Separate := by
  unfold DownlinkHarq.put
  split
  · exact hs
  · exact { hs with
      bound := fun hr => by simpa using hs.bound hr
      releasedBound := fun slot hslot => by simpa using hs.releasedBound slot hslot }

/-- Putting an entity in the slot of a UE changes that UE only. -/
theorem entity?_put (hs : h.Separate) :
    (h.put r e).entity? r' = if r' = r then (h.entity? r).map fun _ => e else h.entity? r' := by
  unfold DownlinkHarq.put
  split
  next hnone =>
    split
    next heq => simp [entity?, heq, hnone]
    next => rfl
  next slot hslot =>
    by_cases heq : r' = r
    · simp [entity?, heq, hslot, hs.bound hslot]
    · rw [if_neg heq]
      exact entity?_of_ne fun hr' => heq (hs.injective hr' hslot)

/-- Giving a UE a slot that belongs to nobody and is not up for release any more. -/
theorem Separate.assign {slots : Array DownlinkEntity} {released : List Nat} {slot : Nat}
    (hs : h.Separate) (hsize : h.slots.size ≤ slots.size) (hslot : slot < slots.size)
    (hnobody : ∀ r' : Rnti, h.index[r']? ≠ some slot) (hsub : released.Sublist h.released)
    (hmem : slot ∉ released) :
    Separate ⟨slots, h.index.insert r slot, released⟩ := by
  -- A slot in the new index is the one that was just given away, or was in the index before.
  have hlookup : ∀ {r' : Rnti} {i : Nat}, (h.index.insert r slot)[r']? = some i →
      r' = r ∧ i = slot ∨ h.index[r']? = some i := by
    intro r' i hi
    rw [Std.ExtTreeMap.getElem?_insert] at hi
    split at hi
    next heq => exact .inl ⟨(Std.compare_eq_iff_eq.1 heq).symm, (Option.some.inj hi).symm⟩
    next => exact .inr hi
  refine ⟨?_, ?_, ?_, ?_, hsub.nodup hs.nodup⟩
  · intro r' i hi
    rcases hlookup hi with ⟨-, rfl⟩ | hi
    · exact hslot
    · exact Nat.lt_of_lt_of_le (hs.bound hi) hsize
  · intro r₁ r₂ i h₁ h₂
    rcases hlookup h₁ with ⟨rfl, rfl⟩ | hold₁
    · rcases hlookup h₂ with ⟨rfl, -⟩ | hold₂
      · rfl
      · exact absurd hold₂ (hnobody r₂)
    · rcases hlookup h₂ with ⟨rfl, rfl⟩ | hold₂
      · exact absurd hold₁ (hnobody r₁)
      · exact hs.injective hold₁ hold₂
  · intro i hi
    exact Nat.lt_of_lt_of_le (hs.releasedBound i (hsub.subset hi)) hsize
  · intro i hi r' hr'
    rcases hlookup hr' with ⟨-, rfl⟩ | hr'
    · exact hmem hi
    · exact hs.released i (hsub.subset hi) r' hr'

/-- A new UE is given a slot that waited, or one behind all others. -/
theorem Separate.insert (hs : h.Separate) : (h.insert r).Separate := by
  unfold DownlinkHarq.insert
  split
  next slot _ hslot =>
    exact { hs with
      bound := fun hr => by simpa using hs.bound hr
      releasedBound := fun slot hslot => by simpa using hs.releasedBound slot hslot }
  next slot rest hnone hrel =>
    have hmem : slot ∈ h.released := by simp [hrel]
    have hnodup := List.nodup_cons.1 (hrel ▸ hs.nodup)
    refine hs.assign (by simp) ?_ (hs.released slot hmem) ?_ hnodup.1
    · rw [Array.size_setIfInBounds]
      exact hs.releasedBound slot hmem
    · rw [hrel]
      exact List.sublist_cons_self slot rest
  next hnone hrel =>
    -- A new slot is above all those in use.
    exact hs.assign (by simp) (by simp) (fun r' hr' => Nat.lt_irrefl _ (hs.bound hr'))
      (List.nil_sublist _) List.not_mem_nil

/-- An added UE has a fresh entity; the others keep theirs. -/
theorem entity?_insert (hs : h.Separate) :
    (h.insert r).entity? r' = if r' = r then some .fresh else h.entity? r' := by
  unfold DownlinkHarq.insert
  split
  -- The UE has a slot already, which is made fresh.
  next slot _ hslot =>
    by_cases heq : r' = r
    · simp [entity?, heq, hslot, hs.bound hslot]
    · rw [if_neg heq]
      exact entity?_of_ne fun hr' => heq (hs.injective hr' hslot)
  -- A released slot is used again. Nobody has it, so all others keep theirs.
  next slot rest hnone hrel =>
    have hmem : slot ∈ h.released := by simp [hrel]
    by_cases heq : r' = r
    · simp [entity?, heq, hs.releasedBound slot hmem]
    · have hr : (h.index.insert r slot)[r']? = h.index[r']? := by
        simp [Std.ExtTreeMap.getElem?_insert, Ne.symm heq]
      simp only [entity?, hr, if_neg heq]
      exact entity?_of_ne (hs.released slot hmem r')
  -- There is no released slot, so a new one is added behind all others.
  next hnone hrel =>
    by_cases heq : r' = r
    · simp [entity?, heq]
    · have hr : (h.index.insert r h.slots.size)[r']? = h.index[r']? := by
        simp [Std.ExtTreeMap.getElem?_insert, Ne.symm heq]
      simp only [entity?, hr, if_neg heq]
      cases hr' : h.index[r']? with
      | none => rfl
      | some i => simp [Array.getElem?_push, Nat.ne_of_lt (hs.bound hr')]

/-- The slot of a released UE waits to be handed out again, once. -/
theorem Separate.erase (hs : h.Separate) : (h.erase r).Separate := by
  unfold DownlinkHarq.erase
  split
  · exact hs
  next slot hslot =>
    refine ⟨?_, ?_, ?_, ?_, ?_⟩
    · intro r' i hi
      rw [Std.ExtTreeMap.getElem?_erase] at hi
      split at hi
      · cases hi
      · simpa using hs.bound hi
    · intro r₁ r₂ i h₁ h₂
      rw [Std.ExtTreeMap.getElem?_erase] at h₁ h₂
      split at h₁
      · cases h₁
      · split at h₂
        · cases h₂
        · exact hs.injective h₁ h₂
    · intro i hi
      rw [Array.size_setIfInBounds]
      rcases List.mem_cons.1 hi with rfl | hi
      · exact hs.bound hslot
      · exact hs.releasedBound i hi
    · intro i hi r' hr'
      rw [Std.ExtTreeMap.getElem?_erase] at hr'
      split at hr'
      · cases hr'
      next hne =>
        -- The slot just released belonged to `r` alone.
        rcases List.mem_cons.1 hi with rfl | hi
        · exact hne (Std.compare_eq_iff_eq.2 (hs.injective hslot hr'))
        · exact hs.released i hi r' hr'
    · exact List.nodup_cons.2 ⟨fun hmem => hs.released slot hmem r hslot, hs.nodup⟩

/-- A released UE has no entity; the others keep theirs. -/
theorem entity?_erase (hs : h.Separate) :
    (h.erase r).entity? r' = if r' = r then none else h.entity? r' := by
  unfold DownlinkHarq.erase
  split
  next hnone =>
    split
    next heq => simp [entity?, heq, hnone]
    next => rfl
  next slot hslot =>
    by_cases heq : r' = r
    · simp [entity?, heq]
    · have hr : (h.index.erase r)[r']? = h.index[r']? := by
        simp [Std.ExtTreeMap.getElem?_erase, Ne.symm heq]
      simp only [entity?, hr, if_neg heq]
      exact entity?_of_ne fun hr' => heq (hs.injective hr' hslot)

/-- A subframe changes what is in the slots, not whose they are. -/
theorem Separate.refresh (hs : h.Separate) : h.refresh.Separate :=
  { hs with
    bound := fun hr => by simpa [DownlinkHarq.refresh] using hs.bound hr
    releasedBound := fun slot hslot => by
      simpa [DownlinkHarq.refresh] using hs.releasedBound slot hslot }

/-- A subframe ages the entities of all UEs. -/
theorem entity?_refresh : h.refresh.entity? r = (h.entity? r).map (·.age) := by
  simp only [entity?, refresh, Array.getElem?_map]
  cases h.index[r]? <;> rfl

/-! ## Who has an entity -/

/-- To add a UE makes it known; who was known stays so. -/
theorem mem_index_insert : r' ∈ (h.insert r).index ↔ r' = r ∨ r' ∈ h.index := by
  unfold DownlinkHarq.insert
  split
  next slot _ hslot =>
    exact (or_iff_right_of_imp fun heq => heq ▸ Table.mem_of_getElem? hslot).symm
  next => exact Table.mem_insert
  next => exact Table.mem_insert

/-- To release a UE makes it unknown; the others stay known. -/
theorem mem_index_erase : r' ∈ (h.erase r).index ↔ r' ≠ r ∧ r' ∈ h.index := by
  unfold DownlinkHarq.erase
  split
  next hnone =>
    have hr : r ∉ h.index := Table.not_mem_iff.2 hnone
    exact (and_iff_right_of_imp fun hr' (heq : r' = r) => hr (heq ▸ hr')).symm
  next => exact Table.mem_erase

/-- To write an entity back changes nothing about who has one. -/
theorem index_put : (h.put r e).index = h.index := by
  unfold DownlinkHarq.put
  split <;> rfl

theorem index_set : (h.set r id p).index = h.index := by
  unfold DownlinkHarq.set
  split
  · rfl
  · exact index_put

/-- A UE moves on in its own entity, to the process that comes next there. -/
theorem advance?_eq_some_iff {h' : DownlinkHarq} :
    h.advance? r = some (id, h') ↔
      ∃ e, h.entity? r = some e ∧ e.next? = some id ∧ h' = h.put r (e.assign id) := by
  simp only [advance?, Option.bind_eq_bind, Option.bind_eq_some_iff, Option.pure_def,
    Option.some.injEq, Prod.mk.injEq]
  refine exists_congr fun e => and_congr_right fun _ => ?_
  constructor
  · rintro ⟨id, hnext, rfl, rfl⟩
    exact ⟨hnext, rfl⟩
  · rintro ⟨hnext, rfl⟩
    exact ⟨id, hnext, rfl, rfl⟩

/-- A UE that moves on to its next process keeps its slot, and so do the others. -/
theorem index_of_advance? {h' : DownlinkHarq} (hadv : h.advance? r = some (id, h')) :
    h'.index = h.index := by
  obtain ⟨e, -, -, rfl⟩ := advance?_eq_some_iff.1 hadv
  exact index_put

/-- The UEs of the index are those with an entity. -/
theorem Separate.mem_index (hs : h.Separate) : r ∈ h.index ↔ (h.entity? r).isSome = true := by
  rw [Std.ExtTreeMap.mem_iff_isSome_getElem?, entity?]
  cases hslot : h.index[r]? with
  | none => simp
  | some slot => simp [hs.bound hslot]

/-! ## Processes -/

theorem process?_empty : empty.process? r id = none := by
  simp [process?, entity?, empty]

/-- A UE that was added has free processes, whatever its slot held before; those of the others stay.
-/
theorem process?_insert (hs : h.Separate) :
    (h.insert r).process? r' id =
      if r' = r then (if id < harqProcesses then some .free else none) else h.process? r' id := by
  rw [process?, entity?_insert hs]
  split
  · exact DownlinkEntity.process?_fresh
  · rfl

/-- A released UE has no process any more; those of the others stay. -/
theorem process?_erase (hs : h.Separate) :
    (h.erase r).process? r' id = if r' = r then none else h.process? r' id := by
  rw [process?, entity?_erase hs]
  split <;> rfl

/-- A fresh entity has free processes only, and the others are left alone. -/
theorem free_or_of_process?_insert (hs : h.Separate)
    (hp : (h.insert r').process? r id = some p) : p = .free ∨ h.process? r id = some p := by
  rw [process?_insert hs] at hp
  split at hp
  · split at hp <;> cases hp
    exact .inl rfl
  · exact .inr hp

/-- What is left when a UE is released was there before. -/
theorem of_process?_erase (hs : h.Separate) (hp : (h.erase r').process? r id = some p) :
    h.process? r id = some p := by
  rw [process?_erase hs] at hp
  split at hp
  · cases hp
  · exact hp

/-- A subframe ages every process of every UE. -/
theorem process?_refresh : h.refresh.process? r id = (h.process? r id).map (·.age) := by
  rw [process?, entity?_refresh, process?]
  cases h.entity? r with
  | none => rfl
  | some e => exact DownlinkEntity.process?_age

/-- Putting an entity that differs from the former one in one process. -/
theorem process?_put (hs : h.Separate) {e : DownlinkEntity} (e' : DownlinkEntity)
    (he : h.entity? r = some e) (hset : ∀ id', e'.process? id' = (e.set id p).process? id') :
    (h.put r e').process? r' id' =
      if r' = r ∧ id' = id then (h.process? r id).map fun _ => p else h.process? r' id' := by
  simp only [process?, entity?_put hs, he]
  by_cases heq : r' = r
  · subst heq
    simp only [he, if_true, Option.map_some, Option.bind_some, hset, true_and]
    exact DownlinkEntity.process?_set
  · simp [heq]

/-- To write one process changes no slot's owner. -/
theorem Separate.set (hs : h.Separate) : (h.set r id p).Separate := by
  unfold DownlinkHarq.set
  split
  · exact hs
  · exact hs.put

/-- Setting a process changes that process only. -/
theorem process?_set (hs : h.Separate) :
    (h.set r id p).process? r' id' =
      if r' = r ∧ id' = id then (h.process? r id).map fun _ => p else h.process? r' id' := by
  unfold DownlinkHarq.set
  split
  next hnone =>
    split
    next heq => simp [process?, heq.1, hnone]
    next => rfl
  next e he => exact process?_put hs _ he fun _ => rfl

/-- Moving on to a process frees it, if it may carry a new block, and changes no other. -/
theorem advance?_eq_some {h' : DownlinkHarq} (hs : h.Separate)
    (hadv : h.advance? r = some (id, h')) :
    h'.Separate ∧ (∃ p, h.process? r id = some p ∧ p.isAvailable = true) ∧
      ∀ r' id', h'.process? r' id' =
        if r' = r ∧ id' = id then some .free else h.process? r' id' := by
  obtain ⟨e, he, hnext, rfl⟩ := advance?_eq_some_iff.1 hadv
  obtain ⟨p, hp, hav⟩ := DownlinkEntity.available_of_next? hnext
  have hproc : h.process? r id = some p := by simp [process?, he, hp]
  refine ⟨hs.put, ⟨p, hproc, hav⟩, fun r' id' => ?_⟩
  rw [process?_put hs (e.assign id) he fun _ => rfl, hproc]
  rfl

/-- The same over the arena: one of the processes of the UE may carry a new block. -/
theorem isAvailable_iff :
    h.isAvailable r = true ↔ ∃ id p, h.process? r id = some p ∧ p.isAvailable = true := by
  rw [isAvailable, Option.any_eq_true]
  constructor
  · rintro ⟨e, he, hav⟩
    obtain ⟨id, p, hp, hav⟩ := DownlinkEntity.isAvailable_iff.1 hav
    exact ⟨id, p, by rw [process?, he, Option.bind_some, hp], hav⟩
  · rintro ⟨id, p, hp, hav⟩
    obtain ⟨e, he, hp⟩ := Option.bind_eq_some_iff.1 hp
    exact ⟨e, he, DownlinkEntity.isAvailable_iff.2 ⟨id, p, hp, hav⟩⟩

/-- A UE with a process that may carry a new block can move on to one. -/
theorem exists_advance? (hav : h.isAvailable r = true) : ∃ out, h.advance? r = some out := by
  obtain ⟨e, he, hav⟩ := (Option.any_eq_true ..).1 hav
  obtain ⟨_, _, hp, hav⟩ := DownlinkEntity.isAvailable_iff.1 hav
  obtain ⟨id, hid⟩ := DownlinkEntity.exists_next? hp hav
  exact ⟨(id, h.put r (e.assign id)), advance?_eq_some_iff.2 ⟨e, he, hid, rfl⟩⟩

/-- The processes that the next subframe gives up. -/
theorem mem_expiring :
    (r, id) ∈ h.expiring ↔ ∃ p, h.process? r id = some p ∧ p.isOverdue = true := by
  simp only [expiring, List.mem_flatMap, List.mem_map, Prod.mk.injEq]
  constructor
  · rintro ⟨r', -, id', hid, rfl, rfl⟩
    cases he : h.entity? r' with
    | none => simp [he] at hid
    | some e =>
      obtain ⟨p, hp, hover⟩ := DownlinkEntity.mem_expiring.1 (by simpa [he] using hid)
      exact ⟨p, by simp [process?, he, hp], hover⟩
  · rintro ⟨p, hp, hover⟩
    obtain ⟨e, he, hp⟩ := Option.bind_eq_some_iff.1 hp
    obtain ⟨slot, hslot, -⟩ := Option.bind_eq_some_iff.1 he
    refine ⟨r, ?_, id, ?_, rfl, rfl⟩
    · rw [Std.ExtTreeMap.mem_keys, Std.ExtTreeMap.mem_iff_isSome_getElem?, hslot]
      rfl
    · rw [he]
      exact DownlinkEntity.mem_expiring.2 ⟨p, hp, hover⟩

end DownlinkHarq

end LteMac
