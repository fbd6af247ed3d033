import LteMac.Proofs.Quality.Freshness
import LteMac.Proofs.Quality.History

/-!
# Reports and timers apart

A table of reports keeps each report together with its timer. The same can be kept in two tables,
the values in one and the timers in the other: a report is then written to both of them, a UE that
is forgotten is erased from both, and a refresh first goes through the timers, takes one off each or
drops it if nothing is left, and then erases the values of the UEs whose timers it dropped. Nothing
but these operations holds the two tables together.

It is enough. To unzip a table of reports, entry by entry, and to do all this to the two parts is
the same as to do it to the table and unzip it afterwards (`AgingTable.unzip_report`, `unzip_erase`,
`unzip_revise`, `unzip_refresh`), and so it is over any run of operations. The two parts always have
the same keys, and give the answers of the one table.

* `TimedTable.refresh`: what a refresh does to the two parts, one after the other;
* `CqiMaps.after_eq`, `CqiMaps.answers`: the downlink quality in four tables;
* `SinrMaps.after_eq`, `SinrMaps.answers`: the uplink quality in two.
-/

namespace LteMac

variable {α : Type} {r : Rnti}

/-! ## Two tables -/

/-- Values and timers in tables of their own. -/
structure TimedTable (α : Type) where
  /-- What was reported. -/
  values : Table Rnti α
  /-- How many refreshes it still outlives. -/
  timers : Table Rnti Nat

namespace TimedTable

/-- Nothing in either table. -/
def empty : TimedTable α := ⟨∅, ∅⟩

/-- Writes a value, and starts its timer. -/
def insert (t : TimedTable α) (r : Rnti) (v : α) (timer : Nat) : TimedTable α :=
  ⟨t.values.insert r v, t.timers.insert r timer⟩

/-- Changes a value, and leaves its timer alone. -/
def modify (t : TimedTable α) (r : Rnti) (f : α → α) : TimedTable α :=
  { t with values := t.values.modify r f }

/-- Erases a UE from both tables. -/
def erase (t : TimedTable α) (r : Rnti) : TimedTable α := ⟨t.values.erase r, t.timers.erase r⟩

/-- A timer with one off, if there is anything left of it. -/
def countDown (timer : Nat) : Option Nat := if timer = 0 then none else some (timer - 1)

/-- The UEs whose timers have nothing left, in ascending order. -/
def evicted (t : TimedTable α) : List Rnti := (t.timers.filter fun _ timer => timer == 0).keys

/-- Goes through the timers, and then erases the values of those that it dropped. -/
def refresh (t : TimedTable α) : TimedTable α where
  values := t.evicted.foldl (fun values r => values.erase r) t.values
  timers := t.timers.filterMap fun _ timer => countDown timer

/-- What an operation on reports does to the two tables, where new timers start at the threshold. -/
def apply (threshold : Nat) (t : TimedTable α) : AgingOp α → TimedTable α
  | .report r v => t.insert r v threshold
  | .refresh => t.refresh
  | .erase r => t.erase r
  | .nothing => t

/-- Two tables are the same if they agree on the value and the timer of each UE. -/
theorem ext_getElem? {t t' : TimedTable α} (hvalues : ∀ r : Rnti, t.values[r]? = t'.values[r]?)
    (htimers : ∀ r : Rnti, t.timers[r]? = t'.timers[r]?) : t = t' := by
  obtain ⟨values, timers⟩ := t
  obtain ⟨values', timers'⟩ := t'
  obtain rfl : values = values' := Std.ExtTreeMap.ext_getElem? hvalues
  obtain rfl : timers = timers' := Std.ExtTreeMap.ext_getElem? htimers
  rfl

end TimedTable

/-- Erasing some UEs one after the other leaves the entries of all others. -/
theorem Table.getElem?_foldl_erase (t : Table Rnti α) (rs : List Rnti) :
    (rs.foldl (fun t r => t.erase r) t)[r]? = if r ∈ rs then none else t[r]? := by
  induction rs using List.reverseRecOn with
  | nil => simp
  | append_singleton rs r' ih =>
    rw [List.foldl_append, List.foldl_cons, List.foldl_nil, Table.getElem?_erase, ih]
    by_cases hr : r = r' <;> simp [hr]

/-! ## Unzipped -/

namespace AgingTable

/-- The values and the timers of a table of reports. -/
def unzip (t : AgingTable α) : TimedTable α where
  values := t.entries.map fun _ a => a.value
  timers := t.entries.map fun _ a => a.remaining

variable {t : AgingTable α}

/-- The values are those of the reports. -/
theorem getElem?_values : t.unzip.values[r]? = t.get? r := Std.ExtTreeMap.getElem?_map

/-- The timers are those of the reports. -/
theorem getElem?_timers : t.unzip.timers[r]? = t.entries[r]?.map (·.remaining) :=
  Std.ExtTreeMap.getElem?_map

/-- Nothing unzips to nothing. -/
theorem unzip_empty (threshold : Nat) : (empty threshold : AgingTable α).unzip = .empty :=
  TimedTable.ext_getElem? (fun _ => by simp [unzip, empty, TimedTable.empty])
    fun _ => by simp [unzip, empty, TimedTable.empty]

/-- A report starts the timer at the threshold. -/
theorem unzip_report (t : AgingTable α) (r : Rnti) (v : α) :
    (t.report r v).unzip = t.unzip.insert r v t.threshold := by
  refine TimedTable.ext_getElem? (fun r' => ?_) fun r' => ?_
  · rw [getElem?_values, get?_report, TimedTable.insert, Table.getElem?_insert, getElem?_values]
    exact if_congr eq_comm rfl rfl
  · rw [getElem?_timers, report, TimedTable.insert, Table.getElem?_insert, Table.getElem?_insert,
      getElem?_timers, apply_ite (Option.map _)]
    rfl

/-- A UE that is forgotten is erased from both parts. -/
theorem unzip_erase (t : AgingTable α) (r : Rnti) : (t.erase r).unzip = t.unzip.erase r := by
  refine TimedTable.ext_getElem? (fun r' => ?_) fun r' => ?_
  · rw [getElem?_values, get?_erase, TimedTable.erase, Table.getElem?_erase, getElem?_values]
    exact if_congr eq_comm rfl rfl
  · rw [getElem?_timers, erase, TimedTable.erase, Table.getElem?_erase, Table.getElem?_erase,
      getElem?_timers, apply_ite (Option.map _)]
    rfl

/-- A change of a value does not reach the timer. -/
theorem unzip_revise (t : AgingTable α) (r : Rnti) (f : α → α) :
    (t.revise r f).unzip = t.unzip.modify r f := by
  refine TimedTable.ext_getElem? (fun r' => ?_) fun r' => ?_
  · rw [getElem?_values, get?, revise, TimedTable.modify, Table.getElem?_modify,
      Table.getElem?_modify, getElem?_values, getElem?_values, apply_ite (Option.map _),
      Option.map_map, get?, get?, Option.map_map]
    rfl
  · rw [getElem?_timers, revise, TimedTable.modify, getElem?_timers, Table.getElem?_modify,
      apply_ite (Option.map _), Option.map_map]
    split
    next heq => rw [heq]; rfl
    next => rfl

/-- The timers that are at zero are those of the reports that the next refresh drops. -/
theorem evicted_unzip (t : AgingTable α) : t.unzip.evicted = t.expiring := by
  refine Table.keys_congr fun r => ?_
  rw [Std.ExtTreeMap.mem_iff_isSome_getElem?, Std.ExtTreeMap.mem_iff_isSome_getElem?,
    Std.ExtTreeMap.getElem?_filter', Std.ExtTreeMap.getElem?_filter', getElem?_timers]
  rcases t.entries[r]? with _ | ⟨v, _ | n⟩ <;> simp [Option.filter]

/-- To go through the timers first and erase the values afterwards drops the same reports. -/
theorem unzip_refresh (t : AgingTable α) : t.refresh.unzip = t.unzip.refresh := by
  refine TimedTable.ext_getElem? (fun r => ?_) fun r => ?_
  · rw [getElem?_values, TimedTable.refresh, Table.getElem?_foldl_erase, evicted_unzip,
      getElem?_values]
    rw [get?, refresh, Std.ExtTreeMap.getElem?_filterMap']
    have hexpiring : r ∈ t.expiring ↔ t.entries[r]?.any (·.remaining == 0) = true := by
      rw [expiring, Std.ExtTreeMap.mem_keys, Std.ExtTreeMap.mem_iff_isSome_getElem?,
        Std.ExtTreeMap.getElem?_filter']
      rcases t.entries[r]? with _ | ⟨v, _ | n⟩ <;> simp [Option.filter]
    simp only [hexpiring, get?]
    rcases t.entries[r]? with _ | ⟨v, _ | n⟩ <;> simp [Aged.tick]
  · rw [getElem?_timers, TimedTable.refresh, Std.ExtTreeMap.getElem?_filterMap', getElem?_timers,
      refresh, Std.ExtTreeMap.getElem?_filterMap']
    rcases t.entries[r]? with _ | ⟨v, _ | n⟩ <;> rfl

/-- One operation, done to the table of reports or to its two parts. -/
theorem unzip_apply (t : AgingTable α) (op : AgingOp α) :
    (t.apply op).unzip = t.unzip.apply t.threshold op := by
  cases op with
  | report r v => exact unzip_report t r v
  | refresh => exact unzip_refresh t
  | erase r => exact unzip_erase t r
  | nothing => rfl

/-- There are as many values as reports. -/
theorem size_unzip (t : AgingTable α) : t.unzip.values.size = t.size := by
  rw [← Std.ExtTreeMap.length_keys, unzip, Std.ExtTreeMap.keys_map, Std.ExtTreeMap.length_keys]
  rfl

/-- A UE has a value if it has a report. -/
theorem contains_unzip (t : AgingTable α) (r : Rnti) :
    t.unzip.values.contains r = t.contains r := by
  rw [unzip, Std.ExtTreeMap.contains_map]
  rfl

end AgingTable

/-! ## Downlink -/

/-- The downlink quality in four tables: values and timers of either kind. -/
structure CqiMaps where
  /-- Refreshes that a new report outlives. -/
  threshold : Nat
  /-- Qualities of the whole band. -/
  wideband : TimedTable Nat
  /-- By group, then layer. -/
  subband : TimedTable (List (List Nat))

namespace CqiMaps

/-- What an operation does to the four tables. -/
def apply (m : CqiMaps) : CqiOp → CqiMaps
  | .wideband r cqi => { m with wideband := m.wideband.insert r cqi m.threshold }
  | .subband r cqis => { m with subband := m.subband.insert r cqis m.threshold }
  | .refresh => { m with wideband := m.wideband.refresh, subband := m.subband.refresh }
  | .erase r => { m with wideband := m.wideband.erase r, subband := m.subband.erase r }

/-- The tables after some operations on empty ones. -/
def after (threshold : Nat) (ops : List CqiOp) : CqiMaps :=
  ops.foldl apply ⟨threshold, .empty, .empty⟩

/-- The quality of the whole band, if known. -/
def wideband? (m : CqiMaps) (r : Rnti) : Option Nat := m.wideband.values[r]?

/-- The quality of a group on a layer, if known. -/
def subband? (m : CqiMaps) (r : Rnti) (rbg layer : Nat) : Option Nat :=
  (m.subband.values[r]?.bind (·[rbg]?)).bind fun layers => layers[layer]?.or layers.head?

/-- The UEs that the next refresh takes a report from. -/
def evicted (m : CqiMaps) : List Rnti := m.wideband.evicted ++ m.subband.evicted

/-- The number of UEs with a report: those with a wideband one, and the others with a subband
one. -/
def size (m : CqiMaps) : Nat :=
  (m.wideband.values.keys ++
    m.subband.values.keys.filter (!m.wideband.values.contains ·)).length

/-- After any operations the four tables are the two tables of reports, unzipped. -/
theorem after_eq (threshold : Nat) (ops : List CqiOp) :
    after threshold ops =
      ⟨threshold, (AgingTable.after CqiOp.toWideband threshold ops).unzip,
        (AgingTable.after CqiOp.toSubband threshold ops).unzip⟩ := by
  induction ops using List.reverseRecOn with
  | nil =>
    rw [AgingTable.after, AgingTable.after, List.foldl_nil, List.foldl_nil,
      AgingTable.unzip_empty, AgingTable.unzip_empty]
    rfl
  | append_singleton ops op ih =>
    rw [AgingTable.after_concat, AgingTable.after_concat, AgingTable.unzip_apply,
      AgingTable.unzip_apply, AgingTable.threshold_after, AgingTable.threshold_after, after,
      List.foldl_append, ← after, ih]
    cases op <;> rfl

/-- After any operations the four tables answer as the reports with their timers do: so whatever is
said of these answers is said of the four tables. -/
theorem answers (threshold : Nat) (ops : List CqiOp) :
    (∀ r, (after threshold ops).wideband? r = (DownlinkQuality.after threshold ops).wideband? r) ∧
    (∀ r rbg layer, (after threshold ops).subband? r rbg layer =
      (DownlinkQuality.after threshold ops).subband? r rbg layer) ∧
    (after threshold ops).evicted = (DownlinkQuality.after threshold ops).expiring ∧
    (after threshold ops).size = (DownlinkQuality.after threshold ops).size := by
  rw [after_eq, DownlinkQuality.after_eq]
  refine ⟨fun r => AgingTable.getElem?_values, fun r rbg layer => ?_, ?_, ?_⟩
  · rw [subband?, AgingTable.getElem?_values]
    rfl
  · rw [evicted, AgingTable.evicted_unzip, AgingTable.evicted_unzip]
    rfl
  · simp only [size, AgingTable.contains_unzip]
    rw [← DownlinkQuality.length_known, DownlinkQuality.known, AgingTable.unzip,
      AgingTable.unzip, Std.ExtTreeMap.keys_map, Std.ExtTreeMap.keys_map]

end CqiMaps

/-! ## Uplink -/

/-- The uplink quality in two tables. -/
structure SinrMaps where
  /-- Refreshes that a new report outlives. -/
  threshold : Nat
  /-- Uplink blocks of the cell. -/
  bandwidth : Nat
  /-- What was measured, by block. -/
  samples : TimedTable (List Float)

namespace SinrMaps

/-- What an operation does to the two tables. The list of a UE is made on its first measurement. -/
def apply (m : SinrMaps) : QualityOp → SinrMaps
  | .bandwidth blocks => { m with bandwidth := blocks }
  | .replace r samples =>
    { m with samples := m.samples.insert r (UplinkQuality.padded samples m.bandwidth) m.threshold }
  | .measure r b v =>
    let known := m.samples.values[r]?.getD (UplinkQuality.padded [] (max m.bandwidth (b + 1)))
    { m with
      samples := m.samples.insert r ((UplinkQuality.padded known (b + 1)).set b v) m.threshold }
  | .refresh => { m with samples := m.samples.refresh }
  | .look r b =>
    { m with
      samples := m.samples.modify r fun samples =>
        samples.set b (UplinkQuality.blockSinr samples b) }
  | .erase r => { m with samples := m.samples.erase r }

/-- The tables after some operations on empty ones. -/
def after (threshold : Nat) (ops : List QualityOp) : SinrMaps :=
  ops.foldl apply ⟨threshold, 0, .empty⟩

/-- The SINR to assume for a block of a UE that has a report. -/
def sinr? (m : SinrMaps) (r : Rnti) (b : Nat) : Option Float :=
  m.samples.values[r]?.map (UplinkQuality.blockSinr · b)

/-- A list without a measurement, made long enough at once or later. -/
theorem padded_max (n k : Nat) :
    UplinkQuality.padded (UplinkQuality.padded [] (max n k)) k =
      UplinkQuality.padded (UplinkQuality.padded [] n) k := by
  simp only [UplinkQuality.padded, List.nil_append, List.length_nil, Nat.sub_zero,
    List.length_replicate, List.replicate_append_replicate]
  congr 1
  omega

/-- After any operations the two tables are the table of reports, unzipped. -/
theorem after_eq (threshold : Nat) (ops : List QualityOp) :
    after threshold ops = ⟨threshold, (UplinkQuality.after threshold ops).bandwidth,
      (UplinkQuality.after threshold ops).sinr.unzip⟩ := by
  induction ops using List.reverseRecOn with
  | nil =>
    rw [UplinkQuality.after, List.foldl_nil, UplinkQuality.empty, AgingTable.unzip_empty]
    rfl
  | append_singleton ops op ih =>
    have hthreshold := UplinkQuality.threshold_after threshold ops
    rw [UplinkQuality.after_concat, after, List.foldl_append, ← after, ih]
    generalize UplinkQuality.after threshold ops = q at hthreshold
    obtain rfl := hthreshold
    have hsame : ∀ {t t' : TimedTable (List Float)}, t' = t →
        SinrMaps.mk q.sinr.threshold q.bandwidth t = ⟨q.sinr.threshold, q.bandwidth, t'⟩ :=
      fun heq => heq ▸ rfl
    cases op with
    | bandwidth => rfl
    | replace r samples => exact hsame (AgingTable.unzip_report ..)
    | measure r b v =>
      refine hsame ((AgingTable.unzip_report ..).trans ?_)
      -- A list that is made for a first measurement is long enough for it at once.
      rw [AgingTable.getElem?_values]
      cases q.sinr.get? r with
      | none => simp only [Option.getD_none, padded_max]
      | some samples => rfl
    | refresh => exact hsame (AgingTable.unzip_refresh q.sinr)
    | look r b => exact hsame (AgingTable.unzip_revise q.sinr r _)
    | erase r => exact hsame (AgingTable.unzip_erase q.sinr r)

/-- After any operations the two tables answer as the reports with their timers do. -/
theorem answers (threshold : Nat) (ops : List QualityOp) :
    (∀ r b, (after threshold ops).sinr? r b = (UplinkQuality.after threshold ops).sinr? r b) ∧
    (∀ r, (after threshold ops).samples.values.contains r =
      (UplinkQuality.after threshold ops).contains r) ∧
    (after threshold ops).samples.evicted = (UplinkQuality.after threshold ops).expiring ∧
    (after threshold ops).samples.values.size = (UplinkQuality.after threshold ops).size := by
  rw [after_eq]
  refine ⟨fun r b => ?_, AgingTable.contains_unzip _, AgingTable.evicted_unzip _,
    AgingTable.size_unzip _⟩
  rw [sinr?, AgingTable.getElem?_values]
  rfl

end SinrMaps

end LteMac
