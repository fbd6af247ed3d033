import LteMac.Radio.Identity
import Mathlib.Data.List.Induction
import Mathlib.Logic.Basic

/-!
# Tables by key

What an operation on a `Table` does to the entry of a given key, where keys that compare equal are
equal, as those of a cell are. The lemmas of the library speak of keys that compare equal; here they
are restated with equations between keys, and with the key that was asked for on the left, so that a
case split decides which entry is meant.

The second half is about what a table as a whole has: its keys come in one ascending order, whatever
the entries are (`Table.keys_congr`), and entries that are written one after the other can be read
back by their keys (`Table.getElem?_foldl_insert`, `Table.getElem?_foldl_alter`). Two changes of one
entry are one (`Table.modify_modify`), and to write back an entry that was read is to change it
(`Table.modify_eq_insert`).
-/

namespace LteMac.Table

variable {κ α : Type} [Ord κ] [Std.TransOrd κ] {t : Table κ α} {k k' : κ} {v : α}

theorem mem_of_getElem? (h : t[k]? = some v) : k ∈ t :=
  Std.ExtTreeMap.mem_iff_isSome_getElem?.2 (h ▸ rfl)

theorem exists_of_mem (h : k ∈ t) : ∃ v, t[k]? = some v :=
  Option.isSome_iff_exists.1 (Std.ExtTreeMap.mem_iff_isSome_getElem?.1 h)

theorem not_mem_iff : k ∉ t ↔ t[k]? = none := by
  rw [Std.ExtTreeMap.mem_iff_isSome_getElem?, Option.not_isSome_iff_eq_none]

/-- The values are collected from the last entry to the first. -/
theorem values_eq_foldr (t : Table κ α) : t.values = t.foldr (fun _ v vs => v :: vs) [] := by
  obtain ⟨⟨t⟩⟩ := t
  induction t using Quotient.ind
  rfl

/-- The values of a table are listed in the order of their keys. -/
theorem values_eq_map (t : Table κ α) : t.values = t.toList.map (·.2) := by
  rw [values_eq_foldr, Std.ExtTreeMap.foldr_eq_foldr_toList]
  induction t.toList with
  | nil => rfl
  | cons entry entries ih => rw [List.foldr_cons, ih, List.map_cons]

/-- The keys of a table are in ascending order, so no key is listed twice. -/
theorem pairwise_keys [LT κ] [LE κ] [Std.LawfulOrderOrd κ] [Std.LawfulOrderLT κ]
    (t : Table κ α) : t.keys.Pairwise (· < ·) :=
  Std.ExtTreeMap.ordered_keys.imp Std.compare_eq_lt.1

variable [Std.LawfulEqOrd κ]

/-- The keys of a table are listed in one order, whatever its values are. -/
theorem keys_congr {β : Type} {t' : Table κ β} (h : ∀ k : κ, k ∈ t ↔ k ∈ t') :
    t.keys = t'.keys := by
  have hsame : t.map (fun _ _ => ()) = t'.map fun _ _ => () := by
    refine Std.ExtTreeMap.ext_getElem? fun k => ?_
    have hk := h k
    rw [Std.ExtTreeMap.mem_iff_isSome_getElem?, Std.ExtTreeMap.mem_iff_isSome_getElem?] at hk
    rw [Std.ExtTreeMap.getElem?_map, Std.ExtTreeMap.getElem?_map]
    rcases ht : t[k]? with _ | v <;> rcases ht' : t'[k]? with _ | v' <;> simp [ht, ht'] at hk ⊢
  rw [← Std.ExtTreeMap.keys_map, hsame, Std.ExtTreeMap.keys_map]

/-- A value of a table is one that some key has. -/
theorem mem_values : v ∈ t.values ↔ ∃ k : κ, t[k]? = some v := by
  simp [values_eq_map, Std.ExtTreeMap.mem_toList_iff_getElem?_eq_some]

/-- The keys of a table whose values know their keys. -/
theorem map_values {key : α → κ} (h : ∀ (k : κ) v, t[k]? = some v → key v = k) :
    t.values.map key = t.keys := by
  rw [values_eq_map, ← Std.ExtTreeMap.map_fst_toList_eq_keys, List.map_map]
  refine List.map_congr_left fun entry hentry => ?_
  exact h _ _ (Std.ExtTreeMap.mem_toList_iff_getElem?_eq_some.1 hentry)

theorem mem_insert : k' ∈ t.insert k v ↔ k' = k ∨ k' ∈ t := by
  rw [Std.ExtTreeMap.mem_insert, Std.compare_eq_iff_eq, eq_comm]

theorem mem_erase : k' ∈ t.erase k ↔ k' ≠ k ∧ k' ∈ t := by
  rw [Std.ExtTreeMap.mem_erase, ne_eq, Std.compare_eq_iff_eq, eq_comm]

variable [DecidableEq κ]

theorem getElem?_insert : (t.insert k v)[k']? = if k' = k then some v else t[k']? := by
  rw [Std.ExtTreeMap.getElem?_insert]
  exact if_congr (Std.compare_eq_iff_eq.trans eq_comm) rfl rfl

theorem getElem?_erase : (t.erase k)[k']? = if k' = k then none else t[k']? := by
  rw [Std.ExtTreeMap.getElem?_erase]
  exact if_congr (Std.compare_eq_iff_eq.trans eq_comm) rfl rfl

/-- A change reaches the entry of its key, if there is one; it adds none. -/
theorem getElem?_modify {f : α → α} :
    (t.modify k f)[k']? = if k' = k then t[k]?.map f else t[k']? := by
  rw [Std.ExtTreeMap.getElem?_modify]
  exact if_congr (Std.compare_eq_iff_eq.trans eq_comm) rfl rfl

/-- Unlike a change, an alteration may add the entry or take it away. -/
theorem getElem?_alter {f : Option α → Option α} :
    (t.alter k f)[k']? = if k' = k then f t[k]? else t[k']? := by
  rw [Std.ExtTreeMap.getElem?_alter]
  exact if_congr (Std.compare_eq_iff_eq.trans eq_comm) rfl rfl

/-- To change an entry is to write down what becomes of it. -/
theorem modify_eq_insert {f : α → α} (h : t[k]? = some v) : t.modify k f = t.insert k (f v) := by
  refine Std.ExtTreeMap.ext_getElem? fun k' => ?_
  rw [getElem?_insert, getElem?_modify, h]
  rfl

/-- A change that comes to nothing. -/
theorem modify_eq_self {f : α → α} (h : ∀ v, t[k]? = some v → f v = v) : t.modify k f = t := by
  refine Std.ExtTreeMap.ext_getElem? fun k' => ?_
  rw [getElem?_modify]
  split
  next heq =>
    rw [heq]
    rcases hv : t[k]? with _ | v
    · rfl
    · rw [Option.map_some, h v hv]
  next => rfl

theorem modify_id (t : Table κ α) (k : κ) : (t.modify k fun v => v) = t :=
  modify_eq_self fun _ _ => rfl

/-- Two changes of one entry are one change. -/
theorem modify_modify (t : Table κ α) (k : κ) (f g : α → α) :
    (t.modify k f).modify k g = t.modify k fun v => g (f v) := by
  refine Std.ExtTreeMap.ext_getElem? fun k' => ?_
  simp only [getElem?_modify]
  split
  · simp [Function.comp_def]
  · rfl

/-- To change an entry by one thing after the other is to change it once. -/
theorem foldl_modify {ι : Type} (f : α → ι → α) (xs : List ι) (t : Table κ α) (k : κ) :
    xs.foldl (fun (t : Table κ α) x => t.modify k (f · x)) t =
      t.modify k fun v => xs.foldl f v := by
  induction xs generalizing t with
  | nil => exact (modify_id t k).symm
  | cons x xs ih => exact (ih _).trans (modify_modify ..)

/-- Entries that are given a new value each, one after the other. -/
theorem getElem?_foldl_alter {f : Option α → Option α} {ks : List κ} (h : ks.Nodup)
    (t : Table κ α) (k : κ) :
    (ks.foldl (fun (t : Table κ α) k => t.alter k f) t)[k]? =
      if k ∈ ks then f t[k]? else t[k]? := by
  induction ks generalizing t with
  | nil => simp
  | cons k' ks ih =>
    obtain ⟨hnew, hks⟩ := List.nodup_cons.1 h
    rw [List.foldl_cons, ih hks, getElem?_alter]
    by_cases hk : k = k'
    · simp [hk, hnew]
    · simp [hk]

/-- A table that is filled from a list, with values that follow from the keys. -/
theorem getElem?_foldl_insert {ι : Type} {key : ι → κ} {value : ι → α} {f : κ → α} {xs : List ι}
    (h : ∀ x ∈ xs, value x = f (key x)) :
    (xs.foldl (fun (t : Table κ α) x => t.insert (key x) (value x)) ∅)[k]? =
      if k ∈ xs.map key then some (f k) else none := by
  induction xs using List.reverseRecOn with
  | nil => simp
  | append_singleton xs x ih =>
    obtain ⟨hxs, hx⟩ := List.forall_mem_append.1 h
    rw [List.foldl_append, List.foldl_cons, List.foldl_nil, getElem?_insert, ih hxs,
      hx x (List.mem_singleton_self x), List.map_append, List.map_singleton]
    by_cases hk : k = key x
    · simp [hk]
    · simp [hk]

end LteMac.Table
