import LteMac.Numeric.Sum
import LteMac.Proofs.Quality.Reports
import LteMac.Proofs.Scheduler.Run

/-!
# Which reports are live

A report is live if it is the latest one about its UE, the UE was not forgotten since, and no more
refreshes went by since than the threshold allows. A table holds the live reports of its history and
no others. The two kinds of downlink quality have a table each, so each kind ages by its own
reports.

What a report goes through is read off the list of operations (`AgingTable.Latest`): it was made at
some point, nothing ended it afterwards, and its age is the number of refreshes since. The
operations are taken as each table sees them, through a view, so that one development serves the
wideband table, to which a subband report is nothing, and the subband table, to which a wideband
report is. The boundary falls out of the timer: it starts at the threshold and loses one with each
refresh, and the refresh that finds it at zero drops the report.

* `AgingTable.entries_after_iff`: the timer of a report and the refreshes since it was made add up
  to the threshold;
* `AgingTable.get?_after_iff`: a table holds exactly the live reports;
* `AgingTable.mem_expiring`: a refresh names whom it takes a report from;
* `DownlinkQuality.live_iff`: all this for both kinds of quality together.
-/

namespace LteMac

/-- What happens to a table of reports. -/
inductive AgingOp (α : Type) where
  /-- A UE gets a new report, with all its time before it. -/
  | report (rnti : Rnti) (value : α)
  /-- A subframe goes by. -/
  | refresh
  /-- A UE loses its report. -/
  | erase (rnti : Rnti)
  /-- The operation is about the other table. -/
  | nothing

namespace AgingOp

variable {α : Type}

/-- Whether an operation ends what was reported about a UE before. -/
def ends (op : AgingOp α) (r : Rnti) : Bool :=
  match op with
  | .report r' _ | .erase r' => r' = r
  | .refresh | .nothing => false

/-- Refreshes that an operation stands for. -/
def refreshes : AgingOp α → Nat
  | .refresh => 1
  | _ => 0

end AgingOp

namespace AgingTable

variable {α Op : Type} {view : Op → AgingOp α} {threshold age : Nat} {ops : List Op} {op : Op}
  {t : AgingTable α} {r r' : Rnti} {v v' : α}

/-- A table after an operation. -/
def apply (t : AgingTable α) : AgingOp α → AgingTable α
  | .report r v => t.report r v
  | .refresh => t.refresh
  | .erase r => t.erase r
  | .nothing => t

/-- The table after some operations, where `view` says what each of them does to it. -/
def after (view : Op → AgingOp α) (threshold : Nat) (ops : List Op) : AgingTable α :=
  ops.foldl (fun t op => t.apply (view op)) (.empty threshold)

/-- The latest report about a UE that was not forgotten since, and the refreshes since it was
made. -/
def Latest (view : Op → AgingOp α) (ops : List Op) (r : Rnti) (v : α) (age : Nat) : Prop :=
  ∃ before op since, ops = before ++ op :: since ∧ view op = .report r v ∧
    (∀ op' ∈ since, (view op').ends r = false) ∧ age = sumBy (fun op' => (view op').refreshes) since

/-- A report is the latest one about a UE, and no older than the threshold. -/
def Live (view : Op → AgingOp α) (threshold : Nat) (ops : List Op) (r : Rnti) (v : α) : Prop :=
  ∃ age ≤ threshold, Latest view ops r v age

/-! ## The history of a table -/

/-- One more operation acts on the table that the others led to. -/
theorem after_concat (view : Op → AgingOp α) (threshold : Nat) (ops : List Op) (op : Op) :
    after view threshold (ops ++ [op]) = (after view threshold ops).apply (view op) := by
  rw [after, List.foldl_append]
  rfl

/-- The threshold is the one that the table was made with. -/
theorem threshold_after (view : Op → AgingOp α) (threshold : Nat) (ops : List Op) :
    (after view threshold ops).threshold = threshold := by
  induction ops using List.reverseRecOn with
  | nil => rfl
  | append_singleton ops op ih =>
    rw [after_concat]
    rcases view op with _ | _ | _ | _ <;> exact ih

/-- A report is the latest one if it was just made, or if it was before and nothing ended it. -/
theorem latest_concat :
    Latest view (ops ++ [op]) r v age ↔
      view op = .report r v ∧ age = 0 ∨
        (view op).ends r = false ∧ ∃ past, Latest view ops r v past ∧
          age = past + (view op).refreshes := by
  constructor
  · rintro ⟨before, op₀, since, hops, hreport, hkept, rfl⟩
    obtain ⟨rfl, rfl, rfl⟩ | ⟨since, rfl, rfl⟩ := concat_eq_append_cons.1 hops
    · exact .inl ⟨hreport, rfl⟩
    · obtain ⟨hkept, hlast⟩ := List.forall_mem_append.1 hkept
      refine .inr ⟨hlast op (List.mem_singleton_self op), _,
        ⟨before, op₀, since, rfl, hreport, hkept, rfl⟩, sumBy_append ..⟩
  · rintro (⟨hreport, rfl⟩ | ⟨hlast, _, ⟨before, op₀, since, rfl, hreport, hkept, rfl⟩, rfl⟩)
    · exact ⟨ops, op, [], rfl, hreport, List.forall_mem_nil _, rfl⟩
    · refine ⟨before, op₀, since ++ [op], by simp, hreport, ?_, ?_⟩
      · exact List.forall_mem_append.2 ⟨hkept, by simpa using hlast⟩
      · exact (sumBy_append _ since [op]).symm

/-- What becomes of the report about a UE. -/
theorem entries_apply (t : AgingTable α) (op : AgingOp α) (r : Rnti) :
    (t.apply op).entries[r]? =
      match op with
      | .report r' v => if r = r' then some ⟨v, t.threshold⟩ else t.entries[r]?
      | .refresh => t.entries[r]?.bind (·.tick)
      | .erase r' => if r = r' then none else t.entries[r]?
      | .nothing => t.entries[r]? := by
  rcases op with ⟨r', v⟩ | _ | r' | _
  · exact Table.getElem?_insert
  · exact Std.ExtTreeMap.getElem?_filterMap'
  · exact Table.getElem?_erase
  · rfl

/-- A report survives a refresh if its timer is not at zero, and has one less then. -/
theorem tick_eq_some_iff {a a' : Aged α} :
    a.tick = some a' ↔ a = ⟨a'.value, a'.remaining + 1⟩ := by
  obtain ⟨v, n⟩ := a
  obtain ⟨v', n'⟩ := a'
  rcases n with _ | n <;> simp [Aged.tick]

/-- The timer of a report and its age add up to the threshold. By induction over the operations from
the left, one case for what each of them is to the table. -/
theorem entries_after_iff {a : Aged α} :
    (after view threshold ops).entries[r]? = some a ↔
      ∃ age, Latest view ops r a.value age ∧ a.remaining + age = threshold := by
  induction ops using List.reverseRecOn generalizing a with
  | nil => simp [after, empty, Latest]
  | append_singleton ops op ih =>
    rw [after_concat, entries_apply]
    simp only [latest_concat]
    rcases hop : view op with ⟨r', v⟩ | _ | r' | _
    · by_cases hr : r = r'
      · subst hr
        obtain ⟨v', n⟩ := a
        simp [threshold_after, AgingOp.ends, eq_comm]
      · simp [hr, Ne.symm hr, AgingOp.ends, AgingOp.refreshes, ih]
    · -- The report was one refresh younger, with one more refresh to outlive.
      simp only [Option.bind_eq_some_iff, tick_eq_some_iff, exists_eq_right, ih, reduceCtorEq,
        false_and, AgingOp.ends, AgingOp.refreshes, true_and, false_or]
      constructor
      · rintro ⟨past, hlatest, hsum⟩
        exact ⟨past + 1, ⟨past, hlatest, rfl⟩, by omega⟩
      · rintro ⟨_, ⟨past, hlatest, rfl⟩, hsum⟩
        exact ⟨past, hlatest, by omega⟩
    · by_cases hr : r = r'
      · simp [hr, AgingOp.ends]
      · simp [hr, Ne.symm hr, AgingOp.ends, AgingOp.refreshes, ih]
    · simp [AgingOp.ends, AgingOp.refreshes, ih]

/-- A table holds exactly the live reports. -/
theorem get?_after_iff :
    (after view threshold ops).get? r = some v ↔ Live view threshold ops r v := by
  rw [get?, Option.map_eq_some_iff]
  constructor
  · rintro ⟨a, ha, rfl⟩
    obtain ⟨age, hlatest, hsum⟩ := entries_after_iff.1 ha
    exact ⟨age, by omega, hlatest⟩
  · rintro ⟨age, hle, hlatest⟩
    exact ⟨⟨v, threshold - age⟩, entries_after_iff.2 ⟨age, hlatest, Nat.sub_add_cancel hle⟩, rfl⟩

/-! ## What a refresh takes away -/

/-- The UEs that lose a report are named in ascending order. -/
theorem pairwise_expiring (t : AgingTable α) : t.expiring.Pairwise (· < ·) :=
  Table.pairwise_keys _

/-- A refresh takes a report from a UE that has one before and none afterwards. -/
theorem mem_expiring : r ∈ t.expiring ↔ (∃ v, t.get? r = some v) ∧ t.refresh.get? r = none := by
  rw [expiring, Std.ExtTreeMap.mem_keys, Std.ExtTreeMap.mem_iff_isSome_getElem?,
    Std.ExtTreeMap.getElem?_filter', get?, get?, refresh, Std.ExtTreeMap.getElem?_filterMap']
  rcases t.entries[r]? with _ | ⟨v, n⟩
  · simp
  · rcases n with _ | n <;> simp [Aged.tick, Option.filter]

/-- Who loses a report by a refresh had a live one before and has none afterwards. -/
theorem mem_expiring_after (hop : view op = .refresh) :
    r ∈ (after view threshold ops).expiring ↔
      (∃ v, Live view threshold ops r v) ∧ ∀ v, ¬Live view threshold (ops ++ [op]) r v := by
  have hrefresh : (after view threshold ops).refresh = after view threshold (ops ++ [op]) := by
    rw [after_concat, hop, apply]
  rw [mem_expiring, hrefresh, Option.eq_none_iff_forall_ne_some]
  simp only [ne_eq, get?_after_iff]

end AgingTable

/-! ## Both kinds of quality -/

/-- An operation on the downlink quality. -/
inductive CqiOp where
  /-- A report about the whole band. -/
  | wideband (rnti : Rnti) (cqi : Nat)
  /-- A report about its groups. -/
  | subband (rnti : Rnti) (cqis : List (List Nat))
  /-- A subframe goes by for both. -/
  | refresh
  /-- A UE loses both. -/
  | erase (rnti : Rnti)

namespace CqiOp

/-- What an operation does to the qualities of the whole band. -/
def toWideband : CqiOp → AgingOp Nat
  | .wideband r cqi => .report r cqi
  | .subband .. => .nothing
  | .refresh => .refresh
  | .erase r => .erase r

/-- What an operation does to the qualities of the groups. -/
def toSubband : CqiOp → AgingOp (List (List Nat))
  | .wideband .. => .nothing
  | .subband r cqis => .report r cqis
  | .refresh => .refresh
  | .erase r => .erase r

/-- The UEs `gone` are those that one more refresh takes a report from, in ascending order. -/
structure Evicts {α : Type} (view : CqiOp → AgingOp α) (threshold : Nat) (ops : List CqiOp)
    (gone : List Rnti) : Prop where
  /-- They are named in ascending order. -/
  ascending : gone.Pairwise (· < ·)
  /-- They have a live report before the refresh, and none after it. -/
  mem_iff : ∀ r, r ∈ gone ↔ (∃ v, AgingTable.Live view threshold ops r v) ∧
    ∀ v, ¬AgingTable.Live view threshold (ops ++ [.refresh]) r v

/-- The UEs that a table names before a refresh are those that the refresh takes a report from. -/
theorem evicts_after {α : Type} {view : CqiOp → AgingOp α} (hview : view .refresh = .refresh)
    (threshold : Nat) (ops : List CqiOp) :
    Evicts view threshold ops (AgingTable.after view threshold ops).expiring where
  ascending := AgingTable.pairwise_expiring _
  mem_iff _ := AgingTable.mem_expiring_after hview

end CqiOp

namespace DownlinkQuality

variable {q : DownlinkQuality} {threshold : Nat} {ops : List CqiOp} {r : Rnti}

/-- The reports after an operation. -/
def apply (q : DownlinkQuality) : CqiOp → DownlinkQuality
  | .wideband r cqi => q.reportWideband r cqi
  | .subband r cqis => q.reportSubband r cqis
  | .refresh => q.refresh
  | .erase r => q.erase r

/-- The reports after some operations on none. -/
def after (threshold : Nat) (ops : List CqiOp) : DownlinkQuality :=
  ops.foldl apply (.empty threshold)

/-- Each kind of quality has a history of its own. -/
theorem after_eq (threshold : Nat) (ops : List CqiOp) :
    after threshold ops =
      ⟨.after CqiOp.toWideband threshold ops, .after CqiOp.toSubband threshold ops⟩ := by
  induction ops using List.reverseRecOn with
  | nil => rfl
  | append_singleton ops op ih =>
    rw [AgingTable.after_concat, AgingTable.after_concat, after, List.foldl_append, ← after, ih]
    rcases op with _ | _ | _ | _ <;> rfl

/-- A missing layer counts as the first. -/
theorem layerCqi?_eq_some_iff {layers : List Nat} {layer cqi : Nat} :
    layerCqi? layers layer = some cqi ↔
      layers[layer]? = some cqi ∨ layers[layer]? = none ∧ layers[0]? = some cqi := by
  rw [layerCqi?, Option.or_eq_some_iff, List.head?_eq_getElem?]

/-- The UEs that a report is held about, each once. -/
def known (q : DownlinkQuality) : List Rnti :=
  q.wideband.entries.keys ++ q.subband.entries.keys.filter (!q.wideband.contains ·)

/-- A UE with reports of both kinds counts once. -/
theorem nodup_known (q : DownlinkQuality) : q.known.Nodup := by
  refine List.nodup_append.2 ⟨Std.ExtTreeMap.nodup_keys, Std.ExtTreeMap.nodup_keys.filter _, ?_⟩
  rintro r hr _ hother rfl
  have hnot := (List.mem_filter.1 hother).2
  rw [AgingTable.contains, Std.ExtTreeMap.contains_iff_mem.2 (Std.ExtTreeMap.mem_keys.1 hr)] at hnot
  cases hnot

/-- The size is the number of UEs that a report is held about. -/
theorem length_known (q : DownlinkQuality) : q.known.length = q.size := by
  rw [known, List.length_append, Std.ExtTreeMap.length_keys]
  rfl

/-- A report is held about a UE if there is one of either kind. -/
theorem mem_known :
    r ∈ q.known ↔ (∃ cqi, q.wideband.get? r = some cqi) ∨ ∃ cqis, q.subband.get? r = some cqis := by
  simp only [known, List.mem_append, List.mem_filter, Std.ExtTreeMap.mem_keys,
    Std.ExtTreeMap.mem_iff_isSome_getElem?, AgingTable.contains, AgingTable.get?,
    Std.ExtTreeMap.contains_eq_isSome_getElem?]
  rcases q.wideband.entries[r]? with _ | a <;> rcases q.subband.entries[r]? with _ | b <;> simp

/-- The cell knows a quality exactly if the report of it is live, where both kinds of report follow
the same rule apart from each other, and a missing layer counts as the first. A refresh names the
UEs it takes a report from, those of the wideband reports first, and the size is the number of UEs
that a live report is about. -/
theorem live_iff (threshold : Nat) (ops : List CqiOp) :
    (∀ r cqi, (after threshold ops).wideband? r = some cqi ↔
      AgingTable.Live CqiOp.toWideband threshold ops r cqi) ∧
    (∀ r rbg layer cqi, (after threshold ops).subband? r rbg layer = some cqi ↔
      ∃ cqis, AgingTable.Live CqiOp.toSubband threshold ops r cqis ∧
        ∃ layers, cqis[rbg]? = some layers ∧
          (layers[layer]? = some cqi ∨ layers[layer]? = none ∧ layers[0]? = some cqi)) ∧
    (∃ wide sub, (after threshold ops).expiring = wide ++ sub ∧
      CqiOp.Evicts CqiOp.toWideband threshold ops wide ∧
      CqiOp.Evicts CqiOp.toSubband threshold ops sub) ∧
    ∃ known : List Rnti, known.Nodup ∧ known.length = (after threshold ops).size ∧
      ∀ r, r ∈ known ↔ (∃ cqi, AgingTable.Live CqiOp.toWideband threshold ops r cqi) ∨
        ∃ cqis, AgingTable.Live CqiOp.toSubband threshold ops r cqis := by
  have hwide : (after threshold ops).wideband = .after CqiOp.toWideband threshold ops :=
    congrArg DownlinkQuality.wideband (after_eq threshold ops)
  have hsub : (after threshold ops).subband = .after CqiOp.toSubband threshold ops :=
    congrArg DownlinkQuality.subband (after_eq threshold ops)
  refine ⟨fun r cqi => ?_, fun r rbg layer cqi => ?_,
    ⟨_, _, ?_, CqiOp.evicts_after rfl threshold ops, CqiOp.evicts_after rfl threshold ops⟩,
    (after threshold ops).known, nodup_known _, length_known _, fun r => ?_⟩
  · rw [wideband?, hwide, AgingTable.get?_after_iff]
  · simp only [subband?, hsub, Option.bind_eq_some_iff, AgingTable.get?_after_iff,
      layerCqi?_eq_some_iff]
    constructor
    · rintro ⟨layers, ⟨cqis, hlive, hlayers⟩, hcqi⟩
      exact ⟨cqis, hlive, layers, hlayers, hcqi⟩
    · rintro ⟨cqis, hlive, layers, hlayers, hcqi⟩
      exact ⟨layers, ⟨cqis, hlive, hlayers⟩, hcqi⟩
  · rw [expiring, hwide, hsub]
  · simp only [mem_known, hwide, hsub, AgingTable.get?_after_iff]

end DownlinkQuality

end LteMac
