import LteMac.Numeric.Sum
import LteMac.Proofs.Radio.Table

/-!
# Tables taken apart

A table whose entries are records can be taken apart in two ways, without anything being lost. The
values of one field can stand in a table of their own, with the same keys (`Table.Column`); where
not every record has the field, the keys are fewer. And where a field is itself a table, by channel,
all of its entries can stand in one table of flows (`Table.Spreads`), which lists the entries of one
UE after those of another.

For each operation on the records there is one on the tables apart that comes to the same. The
lemmas below say which one it is: `Column` has one for every way in which a record can change, and
for tables of flows it is enough to know how an edit looks in the row of one UE (`Table.Edits`).

* `Table.Column.modify`, `Table.Column.put`, `Table.Column.clear`: a change of one record;
* `Table.Edits.foldl`, `Table.Spreads.edit`: edits of the row of one UE, one after the other;
* `Table.Column.size_eq`, `Table.Spreads.size_eq`: how many entries the tables apart have;
* `Table.Spreads.values_filter`: the entries of a UE among those of all flows, in order.
-/

namespace LteMac

namespace FlowId

instance : Std.TransOrd FlowId :=
  inferInstanceAs (Std.TransCmp (compareLex (compareOn FlowId.rnti) (compareOn FlowId.lcid)))

instance : Std.LawfulEqOrd FlowId where
  eq_of_compare h := (compare_eq_iff _ _).1 h

/-- Flows of different UEs are in the order of their UEs. -/
theorem compare_lt_of_lt {a b : FlowId} (h : a.rnti < b.rnti) : compare a b = .lt := by
  change (compare a.rnti b.rnti).then _ = .lt
  rw [Std.compare_eq_lt.2 h]
  rfl

/-- Flows of one UE are in the order of their channels. -/
theorem compare_mk (r : Rnti) (lcid lcid' : Lcid) :
    compare (⟨r, lcid⟩ : FlowId) ⟨r, lcid'⟩ = compare lcid lcid' := by
  change (compare r r).then (compare lcid lcid') = _
  rw [Std.compare_self]
  rfl

end FlowId

namespace Table

section Keys

variable {κ α β : Type} [Ord κ] [Std.TransOrd κ] {t : Table κ α} {k : κ} {v : α} {f : α → α}
  {col : Table κ β} {field : α → Option β}

/-! ## Columns

A column has an entry for a key if the row of the key has one in its place. Every operation on rows
that changes one place is an operation on the column of that place, and leaves the columns of the
other places as they are.
-/

/-- A table has the values of a field of the records of another one, and no others. -/
def Column (field : α → Option β) (t : Table κ α) (col : Table κ β) : Prop :=
  ∀ k : κ, col[k]? = t[k]?.bind field

namespace Column

/-- A table without records has empty columns. -/
theorem empty : Column field (∅ : Table κ α) ∅ := fun k => by
  rw [Std.ExtTreeMap.getElem?_empty, Std.ExtTreeMap.getElem?_empty, Option.bind_none]

/-- A column is there for the records that are there. -/
theorem mem_of_mem (h : Column field t col) (hk : k ∈ col) : k ∈ t := by
  obtain ⟨b, hb⟩ := exists_of_mem hk
  obtain ⟨v, hv, -⟩ := Option.bind_eq_some_iff.1 ((h k).symm.trans hb)
  exact mem_of_getElem? hv

/-- Where every record has the field, a column has the same keys. -/
theorem mem_iff (h : Column field t col) (hfield : ∀ v, (field v).isSome = true) :
    k ∈ col ↔ k ∈ t := by
  rw [Std.ExtTreeMap.mem_iff_isSome_getElem?, Std.ExtTreeMap.mem_iff_isSome_getElem?, h k]
  rcases t[k]? with _ | v
  · rfl
  · exact iff_of_true (hfield v) rfl

end Column

variable [Std.LawfulEqOrd κ]

/-- A table lists its entries in the one ascending order that they have. -/
theorem toList_eq {entries : List (κ × α)}
    (hsorted : entries.Pairwise fun a b => compare a.1 b.1 = .lt)
    (hmem : ∀ k v, (k, v) ∈ entries ↔ t[k]? = some v) : t.toList = entries := by
  have hnodup : ∀ {l : List (κ × α)}, l.Pairwise (fun a b => compare a.1 b.1 = .lt) → l.Nodup :=
    fun hl => hl.imp fun {a b} hab heq => by
      rw [heq, Std.compare_self] at hab
      cases hab
  have htable : t.toList.Pairwise fun a b => compare a.1 b.1 = .lt :=
    Std.ExtTreeMap.ordered_keys_toList
  refine List.Perm.eq_of_pairwise (fun _ _ _ _ hab hba => ?_) htable hsorted
    ((List.perm_ext_iff_of_nodup (hnodup htable) (hnodup hsorted)).2 fun entry => ?_)
  · exact absurd hba (Std.OrientedCmp.not_lt_of_lt hab)
  · obtain ⟨k, v⟩ := entry
    rw [Std.ExtTreeMap.mem_toList_iff_getElem?_eq_some, hmem]

namespace Column

/-- The field of all records changes. -/
theorem map {f : κ → α → α} {g : κ → β → β} (h : Column field t col)
    (hf : ∀ k v, field (f k v) = (field v).map (g k)) : Column field (t.map f) (col.map g) := by
  intro k
  rw [Std.ExtTreeMap.getElem?_map, Std.ExtTreeMap.getElem?_map, h k]
  rcases t[k]? with _ | v
  · rfl
  · exact (hf k v).symm

/-- Other fields of all records change. -/
theorem keep_map {f : κ → α → α} (h : Column field t col) (hf : ∀ k v, field (f k v) = field v) :
    Column field (t.map f) col := by
  intro k
  rw [Std.ExtTreeMap.getElem?_map, h k]
  rcases t[k]? with _ | v
  · rfl
  · exact (hf k v).symm

/-- A column has as many entries as there are records with the field. -/
theorem size_eq (h : Column field t col) :
    col.size = t.values.countP fun v => (field v).isSome := by
  have hkeys : col.keys = (t.filter fun _ v => (field v).isSome).keys := by
    refine keys_congr fun k => ?_
    rw [Std.ExtTreeMap.mem_iff_isSome_getElem?, Std.ExtTreeMap.mem_iff_isSome_getElem?, h k,
      Std.ExtTreeMap.getElem?_filter']
    rcases t[k]? with _ | v
    · rfl
    · cases hfield : (field v).isSome <;> simp [hfield]
  rw [← Std.ExtTreeMap.length_keys, hkeys, Std.ExtTreeMap.length_keys,
    ← Std.ExtTreeMap.length_toList, Std.ExtTreeMap.toList_filter, values_eq_map, List.countP_map,
    List.countP_eq_length_filter]
  rfl

/-- Where every record has the field, a column is as large as the table. -/
theorem size_eq_of_total (h : Column field t col) (hfield : ∀ v, (field v).isSome = true) :
    col.size = t.size := by
  rw [← Std.ExtTreeMap.length_keys, keys_congr fun _ => h.mem_iff hfield,
    Std.ExtTreeMap.length_keys]

end Column

variable [DecidableEq κ]

namespace Column

/-- The field of a record changes. -/
theorem modify {g : β → β} (h : Column field t col) (hf : ∀ v, field (f v) = (field v).map g) :
    Column field (t.modify k f) (col.modify k g) := by
  intro k'
  rw [getElem?_modify, getElem?_modify]
  split
  · rw [h k]
    rcases t[k]? with _ | v
    · rfl
    · exact (hf v).symm
  · exact h k'

/-- Another field of a record changes. -/
theorem keep (h : Column field t col) (hf : ∀ v, field (f v) = field v) :
    Column field (t.modify k f) col := by
  intro k'
  rw [getElem?_modify, h k']
  split
  next heq =>
    rw [heq]
    rcases t[k]? with _ | v
    · rfl
    · exact (hf v).symm
  next => rfl

/-- A record is given the field, whether it had it or not. -/
theorem alter {g : Option β → Option β} (h : Column field t col) (hk : k ∈ t)
    (hf : ∀ v, field (f v) = g (field v)) : Column field (t.modify k f) (col.alter k g) := by
  obtain ⟨v, hv⟩ := exists_of_mem hk
  intro k'
  rw [getElem?_alter, getElem?_modify, h k, h k', hv]
  split
  · exact (hf v).symm
  · rfl

/-- The field of a record is written. -/
theorem put {b : β} (h : Column field t col) (hk : k ∈ t) (hf : ∀ v, field (f v) = some b) :
    Column field (t.modify k f) (col.insert k b) := by
  obtain ⟨v, hv⟩ := exists_of_mem hk
  intro k'
  rw [getElem?_insert, getElem?_modify, h k', hv]
  split
  · exact (hf v).symm
  · rfl

/-- The field of a record is taken away. -/
theorem clear (h : Column field t col) (hf : ∀ v, field (f v) = none) :
    Column field (t.modify k f) (col.erase k) := by
  intro k'
  rw [getElem?_erase, getElem?_modify, h k']
  split
  · rcases t[k]? with _ | v
    · rfl
    · exact (hf v).symm
  · rfl

/-- A record is added that has the field. -/
theorem insert {b : β} (h : Column field t col) (hv : field v = some b) :
    Column field (t.insert k v) (col.insert k b) := by
  intro k'
  rw [getElem?_insert, getElem?_insert, h k']
  split
  · exact hv.symm
  · rfl

/-- A record is added that does not have the field. -/
theorem insert_none (h : Column field t col) (hk : k ∉ t) (hv : field v = none) :
    Column field (t.insert k v) col := by
  intro k'
  rw [getElem?_insert, h k']
  split
  next heq => rw [heq, not_mem_iff.1 hk, Option.bind_some, hv, Option.bind_none]
  next => rfl

/-- A record is erased, and its field with it. -/
theorem erase (h : Column field t col) : Column field (t.erase k) (col.erase k) := by
  intro k'
  rw [getElem?_erase, getElem?_erase, h k']
  split
  · rfl
  · rfl

end Column

end Keys

/-! ## Edits of a row

A row may itself be a table, as the queues of a UE are by channel. An edit is an operation on such a
row that changes one of its entries.
-/

variable {α υ : Type} {r : Rnti}

/-- What `f` does to the row of a UE is what `g` does to the table of all flows: the entries of the
UE change as those of the row do, and those of the other UEs stay. -/
def Edits (r : Rnti) (f : Table Lcid α → Table Lcid α) (g : Table FlowId α → Table FlowId α) :
    Prop :=
  ∀ (flat : Table FlowId α) (row : Table Lcid α),
    (∀ lcid : Lcid, flat[(⟨r, lcid⟩ : FlowId)]? = row[lcid]?) → ∀ (r' : Rnti) (lcid : Lcid),
      (g flat)[(⟨r', lcid⟩ : FlowId)]? =
        if r' = r then (f row)[lcid]? else flat[(⟨r', lcid⟩ : FlowId)]?

/-- An entry is written in the row. -/
theorem edits_insert (r : Rnti) (lcid : Lcid) (v : α) :
    Edits r (·.insert lcid v) (·.insert ⟨r, lcid⟩ v) := by
  intro flat row hrow r' lcid'
  rw [getElem?_insert, getElem?_insert]
  by_cases hr : r' = r
  · simp [hr, hrow]
  · simp [hr]

/-- An entry is erased from the row. -/
theorem edits_erase (r : Rnti) (lcid : Lcid) :
    Edits (α := α) r (·.erase lcid) (·.erase ⟨r, lcid⟩) := by
  intro flat row hrow r' lcid'
  rw [getElem?_erase, getElem?_erase]
  by_cases hr : r' = r
  · simp [hr, hrow]
  · simp [hr]

/-- An entry of the row changes. -/
theorem edits_modify (r : Rnti) (lcid : Lcid) (f : α → α) :
    Edits r (·.modify lcid f) (·.modify ⟨r, lcid⟩ f) := by
  intro flat row hrow r' lcid'
  rw [getElem?_modify, getElem?_modify, hrow]
  by_cases hr : r' = r
  · simp [hr, hrow]
  · simp [hr]

/-- Several edits of the row of one UE, one after the other. -/
theorem Edits.foldl {ι : Type} {f : Table Lcid α → ι → Table Lcid α}
    {g : Table FlowId α → ι → Table FlowId α} (h : ∀ x, Edits r (f · x) (g · x)) (xs : List ι) :
    Edits r (xs.foldl f ·) (xs.foldl g ·) := by
  induction xs with
  | nil =>
    intro flat row hrow r' lcid
    split
    next heq => rw [heq]; exact hrow lcid
    next => rfl
  | cons x xs ih =>
    intro flat row hrow r' lcid
    -- The row after the first edit is where the others begin.
    have hfirst : ∀ lcid : Lcid, (g flat x)[(⟨r, lcid⟩ : FlowId)]? = (f row x)[lcid]? :=
      fun lcid => (h x flat row hrow r lcid).trans (if_pos rfl)
    refine (ih (g flat x) (f row x) hfirst r' lcid).trans ?_
    split
    · rfl
    next hne => exact (h x flat row hrow r' lcid).trans (if_neg hne)

/-! ## Tables of flows

The rows of all UEs, spread out into one table by UE and channel. An edit of a row is an operation
on the entries of its UE, and the table lists the rows one after the other.
-/

variable {t : Table Rnti υ} {row : υ → Table Lcid α} {flat : Table FlowId α} {u : υ} {f : υ → υ}

/-- A table of flows has the entries of the rows of all UEs, and no others. -/
def Spreads (row : υ → Table Lcid α) (t : Table Rnti υ) (flat : Table FlowId α) : Prop :=
  ∀ (r : Rnti) (lcid : Lcid), flat[(⟨r, lcid⟩ : FlowId)]? = t[r]?.bind fun u => (row u)[lcid]?

namespace Spreads

/-- No UEs have no flows. -/
theorem empty : Spreads row ∅ ∅ := fun r lcid => by
  rw [Std.ExtTreeMap.getElem?_empty, Std.ExtTreeMap.getElem?_empty, Option.bind_none]

/-- The flows in the table are those of the UEs, each in the row of its own. -/
theorem mem_iff (h : Spreads row t flat) {flow : FlowId} :
    flow ∈ flat ↔ ∃ u, t[flow.rnti]? = some u ∧ flow.lcid ∈ row u := by
  rw [Std.ExtTreeMap.mem_iff_isSome_getElem?, h flow.rnti flow.lcid]
  rcases t[flow.rnti]? with _ | u
  · simp
  · rw [Option.bind_some, ← Std.ExtTreeMap.mem_iff_isSome_getElem?]
    simp

/-- The row of a UE is edited. -/
theorem edit {edit : Table Lcid α → Table Lcid α} {edit' : Table FlowId α → Table FlowId α}
    (h : Spreads row t flat) (hedits : Edits r edit edit') (hr : r ∈ t)
    (hrow : ∀ u, row (f u) = edit (row u)) : Spreads row (t.modify r f) (edit' flat) := by
  obtain ⟨u, hu⟩ := exists_of_mem hr
  intro r' lcid
  rw [hedits flat (row u) (fun lcid => by rw [h r lcid, hu, Option.bind_some]) r' lcid,
    getElem?_modify, hu]
  split
  · rw [Option.map_some, Option.bind_some, hrow]
  · exact h r' lcid

/-- Another field of a UE changes. -/
theorem keep (h : Spreads row t flat) (hrow : ∀ u, row (f u) = row u) :
    Spreads row (t.modify r f) flat := by
  intro r' lcid
  rw [getElem?_modify, h r' lcid]
  split
  next heq =>
    rw [heq]
    rcases t[r]? with _ | u
    · rfl
    · exact congrArg (·[lcid]?) (hrow u).symm
  next => rfl

/-- Other fields of all UEs change. -/
theorem keep_map {f : Rnti → υ → υ} (h : Spreads row t flat) (hrow : ∀ r u, row (f r u) = row u) :
    Spreads row (t.map f) flat := by
  intro r lcid
  rw [Std.ExtTreeMap.getElem?_map, h r lcid]
  rcases t[r]? with _ | u
  · rfl
  · exact congrArg (·[lcid]?) (hrow r u).symm

/-- A UE is added that has no entry. -/
theorem insert (h : Spreads row t flat) (hr : r ∉ t) (hrow : row u = ∅) :
    Spreads row (t.insert r u) flat := by
  intro r' lcid
  rw [getElem?_insert, h r' lcid]
  split
  next heq =>
    rw [heq, not_mem_iff.1 hr, Option.bind_some, hrow, Std.ExtTreeMap.getElem?_empty,
      Option.bind_none]
  next => rfl

/-- A UE that is gone has to be filtered out of the flows. -/
theorem erase (h : Spreads row t flat) :
    Spreads row (t.erase r) (flat.filter fun flow _ => flow.rnti ≠ r) := by
  intro r' lcid
  rw [Std.ExtTreeMap.getElem?_filter', getElem?_erase, h r' lcid]
  split
  next heq =>
    rw [Option.bind_none, Option.filter_eq_none_iff]
    exact fun _ _ => by simpa using heq
  next hne =>
    rcases t[r']?.bind fun u => (row u)[lcid]? with _ | v
    · rfl
    · exact Option.filter_some_pos (by simpa using hne)

/-- The entries of a UE among those of all flows, ascending, are those of its row. -/
theorem values_filter (h : Spreads row t flat) (r : Rnti) :
    (flat.filter fun flow _ => flow.rnti = r).values = t[r]?.elim [] fun u => (row u).values := by
  -- The filtered table lists the row of the UE, each entry under the flow that it is of.
  have hentries : (flat.filter fun flow _ => flow.rnti = r).toList =
      (t[r]?.elim [] fun u => (row u).toList).map fun entry => (⟨r, entry.1⟩, entry.2) := by
    refine Table.toList_eq ?_ fun flow v => ?_
    · rw [List.pairwise_map]
      rcases t[r]? with _ | u
      · exact .nil
      · exact Std.ExtTreeMap.ordered_keys_toList.imp fun hlt => (FlowId.compare_mk ..).trans hlt
    · obtain ⟨r', lcid⟩ := flow
      rw [Std.ExtTreeMap.getElem?_filter', Option.filter_eq_some_iff, h r' lcid, List.mem_map]
      constructor
      · rintro ⟨⟨lcid', v'⟩, hmem, heq⟩
        obtain ⟨⟨rfl, rfl⟩, rfl⟩ : (r = r' ∧ lcid' = lcid) ∧ v' = v := by simpa using heq
        rcases hu : t[r]? with _ | u
        · simp [hu] at hmem
        · rw [hu] at hmem
          exact ⟨Std.ExtTreeMap.mem_toList_iff_getElem?_eq_some.1 hmem, by simp⟩
      · rintro ⟨hcell, hr⟩
        obtain rfl := of_decide_eq_true hr
        rcases hu : t[r']? with _ | u
        · simp [hu] at hcell
        · rw [hu] at hcell
          exact ⟨(lcid, v), Std.ExtTreeMap.mem_toList_iff_getElem?_eq_some.2 hcell, rfl⟩
  rw [values_eq_map, hentries, List.map_map]
  rcases t[r]? with _ | u
  · rfl
  · exact (values_eq_map (row u)).symm

/-- A table of flows lists one row after the other. -/
theorem toList_eq (h : Spreads row t flat) : flat.toList = t.toList.flatMap fun ue =>
    (row ue.2).toList.map fun entry => (⟨ue.1, entry.1⟩, entry.2) := by
  refine Table.toList_eq (List.pairwise_flatMap.2 ⟨fun ue _ => ?_, ?_⟩) fun flow v => ?_
  · refine List.pairwise_map.2 (Std.ExtTreeMap.ordered_keys_toList.imp fun hlt => ?_)
    exact (FlowId.compare_mk ..).trans hlt
  -- All flows of one UE come before those of the next one, whatever their channels.
  · refine Std.ExtTreeMap.ordered_keys_toList.imp fun {ue ue'} hlt x hx y hy => ?_
    obtain ⟨entry, -, rfl⟩ := List.mem_map.1 hx
    obtain ⟨entry', -, rfl⟩ := List.mem_map.1 hy
    exact FlowId.compare_lt_of_lt (Std.compare_eq_lt.1 hlt)
  · obtain ⟨r, lcid⟩ := flow
    rw [h r lcid, Option.bind_eq_some_iff, List.mem_flatMap]
    constructor
    · rintro ⟨⟨r', u⟩, hue, hentry⟩
      obtain ⟨⟨lcid', v'⟩, hcell, heq⟩ := List.mem_map.1 hentry
      obtain ⟨⟨rfl, rfl⟩, rfl⟩ : (r' = r ∧ lcid' = lcid) ∧ v' = v := by simpa using heq
      exact ⟨u, Std.ExtTreeMap.mem_toList_iff_getElem?_eq_some.1 hue,
        Std.ExtTreeMap.mem_toList_iff_getElem?_eq_some.1 hcell⟩
    · rintro ⟨u, hue, hcell⟩
      exact ⟨(r, u), Std.ExtTreeMap.mem_toList_iff_getElem?_eq_some.2 hue, List.mem_map.2
        ⟨(lcid, v), Std.ExtTreeMap.mem_toList_iff_getElem?_eq_some.2 hcell, rfl⟩⟩

/-- A table of flows has as many entries as all rows together. -/
theorem size_eq (h : Spreads row t flat) :
    flat.size = sumBy (fun u => (row u).size) t.values := by
  rw [← Std.ExtTreeMap.length_toList, h.toList_eq, values_eq_map, sumBy_map]
  induction t.toList with
  | nil => rfl
  | cons ue rest ih =>
    rw [List.flatMap_cons, List.length_append, List.length_map, Std.ExtTreeMap.length_toList, ih,
      sumBy_cons]

end Spreads

end Table

end LteMac
