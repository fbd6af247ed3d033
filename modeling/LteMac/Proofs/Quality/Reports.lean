import LteMac.Proofs.Radio.Table
import LteMac.Quality.Downlink
import LteMac.Quality.Uplink

/-!
# What the quality tables hold

A property of the reports in a table (`AgingTable.All`) survives every operation on the table, if it
holds of the reports that are new. The two uses are that all reports are about known UEs, and that
an uplink report covers the whole band.

The property may depend on the UE, so a report that is erased with its UE leaves a table in which
the property can be strengthened by that the UE is another one. That is how a release is followed,
without looking at the tables again.

* `AgingTable.All.report`, `revise`, `erase`, `refresh`: the operations of a table;
* `DownlinkQuality.Knows`, `UplinkQuality.Covers`: the same for the tables of either direction.
-/

namespace LteMac

namespace AgingTable

variable {α : Type} {t : AgingTable α} {P Q : Rnti → α → Prop} {r : Rnti}

/-- Every report of a table, with the UE it is about, has a property. -/
def All (P : Rnti → α → Prop) (t : AgingTable α) : Prop :=
  ∀ (r : Rnti) (a : Aged α), t.entries[r]? = some a → P r a.value

/-- An empty table. -/
theorem all_empty (n : Nat) : (empty n).All P := by
  intro r a h
  simp [empty] at h

/-- A weaker property. -/
theorem All.imp (h : t.All P) (hPQ : ∀ r v, P r v → Q r v) : t.All Q :=
  fun r a ha => hPQ r a.value (h r a ha)

/-- A report that is found. -/
theorem All.of_get? (h : t.All P) {v : α} (hv : t.get? r = some v) : P r v := by
  obtain ⟨a, ha, rfl⟩ := Option.map_eq_some_iff.1 hv
  exact h r a ha

/-- A new report with the property. -/
theorem All.report (h : t.All P) {v : α} (hv : P r v) : (t.report r v).All P := by
  intro r' a ha
  rw [AgingTable.report, Table.getElem?_insert] at ha
  split at ha
  next heq =>
    obtain rfl := Option.some.inj ha
    exact heq ▸ hv
  next => exact h r' a ha

/-- A change of a report that keeps the property. -/
theorem All.revise (h : t.All P) {f : α → α} (hf : ∀ v, P r v → P r (f v)) :
    (t.revise r f).All P := by
  intro r' a ha
  rw [AgingTable.revise, Table.getElem?_modify] at ha
  split at ha
  next heq =>
    obtain ⟨b, hb, rfl⟩ := Option.map_eq_some_iff.1 ha
    exact heq ▸ hf b.value (h r b hb)
  next => exact h r' a ha

/-- What is left after a UE was forgotten is about the others. -/
theorem All.erase (h : t.All P) (r : Rnti) : (t.erase r).All fun r' v => r' ≠ r ∧ P r' v := by
  intro r' a ha
  rw [AgingTable.erase, Table.getElem?_erase] at ha
  split at ha
  · cases ha
  next hne => exact ⟨hne, h r' a ha⟩

/-- Ageing drops reports, and changes none. -/
theorem All.refresh (h : t.All P) : t.refresh.All P := by
  intro r a ha
  rw [AgingTable.refresh, Std.ExtTreeMap.getElem?_filterMap', Option.bind_eq_some_iff] at ha
  obtain ⟨b, hb, htick⟩ := ha
  unfold Aged.tick at htick
  split at htick
  · cases htick
  · obtain rfl := Option.some.inj htick
    exact h r b hb

end AgingTable

/-! ## Downlink -/

namespace DownlinkQuality

variable {known known' : Rnti → Prop} {q : DownlinkQuality} {r : Rnti}

/-- All reports are about known UEs. -/
structure Knows (known : Rnti → Prop) (q : DownlinkQuality) : Prop where
  /-- Wideband reports are about known UEs. -/
  wideband : q.wideband.All fun r _ => known r
  /-- Subband reports are about known UEs. -/
  subband : q.subband.All fun r _ => known r

/-- Nothing is known in the beginning. -/
theorem knows_empty (n : Nat) : (empty n).Knows known :=
  ⟨AgingTable.all_empty n, AgingTable.all_empty n⟩

theorem Knows.imp (h : q.Knows known) (hsub : ∀ r, known r → known' r) : q.Knows known' :=
  ⟨h.wideband.imp fun r _ => hsub r, h.subband.imp fun r _ => hsub r⟩

theorem Knows.refresh (h : q.Knows known) : q.refresh.Knows known :=
  ⟨h.wideband.refresh, h.subband.refresh⟩

theorem Knows.erase (h : q.Knows known) (r : Rnti) :
    (q.erase r).Knows fun r' => r' ≠ r ∧ known r' :=
  ⟨h.wideband.erase r, h.subband.erase r⟩

theorem Knows.reportWideband (h : q.Knows known) (hr : known r) (cqi : Nat) :
    (q.reportWideband r cqi).Knows known :=
  ⟨h.wideband.report hr, h.subband⟩

theorem Knows.reportSubband (h : q.Knows known) (hr : known r) (cqis : List (List Nat)) :
    (q.reportSubband r cqis).Knows known :=
  ⟨h.wideband, h.subband.report hr⟩

end DownlinkQuality

/-! ## Uplink -/

/-- Whether a value is a measurement. -/
def Sinr.IsMeasured (v : Float) : Prop := (v != unmeasured) = true

namespace UplinkQuality

variable {known known' : Rnti → Prop} {q : UplinkQuality} {r r' : Rnti}

/-- A report loses a subframe of its time, or is dropped. -/
theorem entries_refresh : q.refresh.sinr.entries[r]? = q.sinr.entries[r]?.bind (·.tick) :=
  Std.ExtTreeMap.getElem?_filterMap'

/-- The report of a UE is erased, and no other one. -/
theorem entries_erase :
    (q.erase r').sinr.entries[r]? = if r = r' then none else q.sinr.entries[r]? :=
  Table.getElem?_erase

/-- An estimate is written to the report of its UE. -/
theorem entries_settle {block : Nat} : (q.settle r' block).sinr.entries[r]? =
    if r = r' then q.sinr.entries[r]?.map fun a =>
      { a with value := a.value.set block (blockSinr a.value block) }
    else q.sinr.entries[r]? := by
  refine Table.getElem?_modify.trans ?_
  split
  next heq => rw [heq]
  next => rfl

/-- All reports are about known UEs and cover the band. -/
def Covers (known : Rnti → Prop) (q : UplinkQuality) : Prop :=
  q.sinr.All fun r samples => known r ∧ q.bandwidth ≤ samples.length

/-- There is no report in the beginning. -/
theorem covers_empty (n : Nat) : (empty n).Covers known := AgingTable.all_empty n

theorem Covers.imp (h : q.Covers known) (hsub : ∀ r, known r → known' r) : q.Covers known' :=
  AgingTable.All.imp h fun r _ => And.imp_left (hsub r)

theorem Covers.refresh (h : q.Covers known) : q.refresh.Covers known := AgingTable.All.refresh h

theorem Covers.erase (h : q.Covers known) (r : Rnti) :
    (q.erase r).Covers fun r' => r' ≠ r ∧ known r' :=
  (AgingTable.All.erase h r).imp fun _ _ ⟨hne, hr, hlen⟩ => ⟨⟨hne, hr⟩, hlen⟩

/-- Without any report, the band may still be chosen. -/
theorem Covers.setBandwidth (h : q.Covers fun _ => False) (n : Nat) :
    (q.setBandwidth n).Covers known :=
  AgingTable.All.imp h fun _ _ ⟨hnone, _⟩ => hnone.elim

/-- A report is made longer if it is too short, but never shorter. -/
theorem length_padded (samples : List Float) (n : Nat) :
    (padded samples n).length = max samples.length n := by
  simp only [padded, List.length_append, List.length_replicate]
  omega

/-- A report is made to cover the band. -/
theorem Covers.replace (h : q.Covers known) (hr : known r) (samples : List Float) :
    (q.replace r samples).Covers known :=
  AgingTable.All.report h ⟨hr, length_padded samples _ ▸ Nat.le_max_right ..⟩

/-- A measurement of one block leaves a report that covers the band as before, or makes one. -/
theorem Covers.setBlock (h : q.Covers known) (hr : known r) (block : Nat) (value : Float) :
    (q.setBlock r block value).Covers known := by
  refine AgingTable.All.report h ⟨hr, ?_⟩
  have hknown : q.bandwidth ≤ ((q.sinr.get? r).getD (padded [] q.bandwidth)).length := by
    cases hget : q.sinr.get? r with
    | none => exact length_padded [] _ ▸ Nat.le_max_right ..
    | some samples => exact (h.of_get? hget).2
  rw [List.length_set, length_padded]
  exact Nat.le_trans hknown (Nat.le_max_left ..)

/-- An estimate takes the place of a sample. -/
theorem Covers.settle (h : q.Covers known) (r : Rnti) (block : Nat) :
    (q.settle r block).Covers known :=
  AgingTable.All.revise h fun samples hlen => by rwa [List.length_set]

end UplinkQuality

end LteMac
