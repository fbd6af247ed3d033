import LteMac.Proofs.Harq.Arena
import LteMac.Proofs.Reuse.Memory
import LteMac.Scheduler.Step

/-!
# Dossiers

What a scheduler keeps falls into three parts: the setup of the cell, which is the same whoever is
served in it; a dossier for each UE, gathered from the tables; and the commons, where the UEs stand
in line or side by side. What is not in any part is who has which slot of the arena.

The tables are keyed by UEs, one table for each kind of thing that is kept. To compare two cells
with respect to one UE, or to say what a request does to it, one would have to go through all of
them every time. A dossier is the other way of looking at the same tables, by row and not by column,
and `eq_of_dossier` says that nothing is lost by it.

A request about one UE edits the dossier of that UE (`SchedulerState.Edits`). So where two cells
agree on some UEs (`SchedulerState.AgreeOn`), they still do after the same edit of one of these, and
after any edit of another UE.

* `SchedulerState.eq_of_dossier`: the three parts and the arena are all there is;
* `SchedulerState.edits_addUe`, `edits_removeUe`, …: what the operations of the control plane do;
* `SchedulerState.AgreeOn.edit`, `Edits.agreeOn`: what edits do to the agreement of two cells.
-/

namespace LteMac

/-- What is kept of one UE. -/
structure Dossier (Record : Type) where
  /-- How the control plane set it up. -/
  ue : Option Ue
  /-- What the downlink keeps of it. -/
  downlink : Option (DownlinkUe Record)
  /-- What the uplink keeps of it. -/
  uplink : Option UplinkUe
  /-- Its downlink processes. -/
  entity : Option DownlinkEntity
  /-- Its report of the whole band. -/
  wideband : Option (Aged Nat)
  /-- Its report by group. -/
  subband : Option (Aged (List (List Nat)))
  /-- The samples of its signal. -/
  sinr : Option (Aged (List Float))
  /-- What the reuse policy remembers. -/
  memory : ReusePolicy.Memory

/-- Nothing is kept. -/
def Dossier.empty {Record : Type} : Dossier Record :=
  ⟨none, none, none, none, none, none, none, .blank⟩

/-- A UE that has just been configured, after so many downlink triggers, and what was kept of it
before. -/
def Dossier.start {Record : Type} (policy : Policy Record) (tti : Nat) (mode : TransmissionMode)
    (d : Dossier Record) : Dossier Record :=
  { d with
    ue := some ⟨mode, ∅⟩
    downlink := some (.idle (policy.fresh tti))
    uplink := some (.idle tti)
    entity := some .fresh }

/-- What is kept of a cell, whoever is served in it. -/
structure Setup where
  /-- The parameters. -/
  config : SchedulerConfig
  /-- Whether somebody listens to the answers of the control plane. -/
  controlConnected : Bool
  /-- Whether somebody listens to the decisions. -/
  dataConnected : Bool
  /-- The grid, once there is one. -/
  grid : Option Grid
  /-- The reuse policy before it learned anything. -/
  reuse : ReusePolicy
  /-- Whether the reuse policy was installed. -/
  reuseInstalled : Bool
  /-- Downlink triggers so far. -/
  tti : Nat
  /-- Messages that wait to be broadcast. -/
  paging : List PagingMessage
  /-- Refreshes that a wideband report outlives. -/
  widebandThreshold : Nat
  /-- Refreshes that a subband report outlives. -/
  subbandThreshold : Nat
  /-- Refreshes that an uplink report outlives. -/
  sinrThreshold : Nat
  /-- Uplink blocks of the cell. -/
  bandwidth : Nat

/-- Where UEs stand in line or side by side. -/
structure Commons where
  /-- Preambles, in the order in which they were heard. -/
  preambles : List Preamble
  /-- Feedback that waits, the oldest first. -/
  feedback : List HarqFeedback
  /-- Blocks of the next uplink subframe that answer a random access. -/
  reserved : BlockMap
  /-- Who was given which block in past subframes. -/
  history : List (Subframe × BlockMap)
  /-- Whose turn it is in the downlink. -/
  downlinkCursor : Rnti
  /-- Whose turn it is in the uplink. -/
  uplinkCursor : Rnti

/-- What is left of the commons when a UE is gone. -/
def Commons.without (c : Commons) (r : Rnti) : Commons where
  preambles := c.preambles.filter (·.rnti ≠ r)
  feedback := c.feedback.filter (·.rnti ≠ r)
  reserved := c.reserved.release r
  history := c.history.map fun past => (past.1, past.2.release r)
  downlinkCursor := SchedulerState.resetCursor c.downlinkCursor r
  uplinkCursor := SchedulerState.resetCursor c.uplinkCursor r

/-- A table is its threshold and its entries. -/
theorem AgingTable.ext {α : Type} {q q' : AgingTable α} (hthreshold : q.threshold = q'.threshold)
    (hentries : ∀ r : Rnti, q.entries[r]? = q'.entries[r]?) : q = q' := by
  obtain ⟨threshold, entries⟩ := q
  obtain ⟨threshold', entries'⟩ := q'
  obtain rfl : threshold = threshold' := hthreshold
  exact congrArg (mk threshold) (Std.ExtTreeMap.ext_getElem? fun {r} => hentries r)

namespace SchedulerState

variable {Record : Type} {policy : Policy Record} {s s' s'' t t' : SchedulerState Record}
  {known : Rnti → Prop} {r r' : Rnti} {f g : Dossier Record → Dossier Record}

/-- The setup of a cell. -/
def setup (s : SchedulerState Record) : Setup where
  config := s.config
  controlConnected := s.controlConnected
  dataConnected := s.dataConnected
  grid := s.grid
  reuse := s.reuse.unlearned
  reuseInstalled := s.reuseInstalled
  tti := s.downlink.tti
  paging := s.downlink.paging
  widebandThreshold := s.downlink.quality.wideband.threshold
  subbandThreshold := s.downlink.quality.subband.threshold
  sinrThreshold := s.uplink.quality.sinr.threshold
  bandwidth := s.uplink.quality.bandwidth

/-- The dossier of a UE. -/
def dossier (s : SchedulerState Record) (r : Rnti) : Dossier Record where
  ue := s.ues[r]?
  downlink := s.downlink.ues[r]?
  uplink := s.uplink.ues[r]?
  entity := s.downlink.harq.entity? r
  wideband := s.downlink.quality.wideband.entries[r]?
  subband := s.downlink.quality.subband.entries[r]?
  sinr := s.uplink.quality.sinr.entries[r]?
  memory := s.reuse.memory r

/-- The commons of a cell. -/
def commons (s : SchedulerState Record) : Commons where
  preambles := s.preambles
  feedback := s.downlink.feedback
  reserved := s.uplink.reserved
  history := s.uplink.history
  downlinkCursor := s.downlink.cursor
  uplinkCursor := s.uplink.cursor

/-! ## What the parts determine -/

/-- A reuse policy is its rule and what it remembers of each UE. -/
theorem reuse_eq_of_dossier (hsetup : s.setup = t.setup)
    (hdossier : ∀ r, (s.dossier r).memory = (t.dossier r).memory) : s.reuse = t.reuse :=
  ReusePolicy.eq_of_memory (congrArg Setup.reuse hsetup) hdossier

/-- The quality tables are their thresholds and the reports of each UE. -/
theorem quality_eq_of_dossier (hsetup : s.setup = t.setup)
    (hwideband : ∀ r, (s.dossier r).wideband = (t.dossier r).wideband)
    (hsubband : ∀ r, (s.dossier r).subband = (t.dossier r).subband) :
    s.downlink.quality = t.downlink.quality := by
  have hw := AgingTable.ext (congrArg Setup.widebandThreshold hsetup) hwideband
  have hs := AgingTable.ext (congrArg Setup.subbandThreshold hsetup) hsubband
  exact congrArg₂ DownlinkQuality.mk hw hs

/-- Two cells with the same setup, dossiers and commons differ at most in the slots of the arena. -/
theorem eq_of_dossier (hsetup : s.setup = t.setup) (hdossier : ∀ r, s.dossier r = t.dossier r)
    (hcommons : s.commons = t.commons) :
    t = { s with downlink := { s.downlink with harq := t.downlink.harq } } := by
  have hreuse := reuse_eq_of_dossier hsetup fun r => congrArg Dossier.memory (hdossier r)
  have hquality := quality_eq_of_dossier hsetup (fun r => congrArg Dossier.wideband (hdossier r))
    fun r => congrArg Dossier.subband (hdossier r)
  have hsinr := AgingTable.ext (congrArg Setup.sinrThreshold hsetup)
    fun r => congrArg Dossier.sinr (hdossier r)
  have hues := Std.ExtTreeMap.ext_getElem? fun {r} => congrArg Dossier.ue (hdossier r)
  have hdownlink := Std.ExtTreeMap.ext_getElem? fun {r} => congrArg Dossier.downlink (hdossier r)
  have huplink := Std.ExtTreeMap.ext_getElem? fun {r} => congrArg Dossier.uplink (hdossier r)
  -- Every table is determined by now; the other fields stand in the setup or in the commons.
  obtain ⟨_, _, _, _, _, _, _, _, ⟨_, _, _, _, _, _, _⟩, ⟨_, ⟨_, _⟩, _, _, _⟩⟩ := s
  obtain ⟨_, _, _, _, _, _, _, _, ⟨_, _, _, _, _, _, _⟩, ⟨_, ⟨_, _⟩, _, _, _⟩⟩ := t
  simp only [setup, commons, Setup.mk.injEq, Commons.mk.injEq] at hsetup hcommons
  simp_all

/-! ## Agreement -/

/-- Two cells agree on what they keep of the UEs in question, and on their setup. -/
structure AgreeOn (known : Rnti → Prop) (s t : SchedulerState Record) : Prop where
  /-- The setup is the same. -/
  setup : s.setup = t.setup
  /-- The dossiers of the UEs in question are the same. -/
  dossier : ∀ r, known r → s.dossier r = t.dossier r
  /-- In the first cell every UE has a slot of its own. -/
  separate : s.downlink.harq.Separate
  /-- So it has in the second one. -/
  separate' : t.downlink.harq.Separate

namespace AgreeOn

/-- A cell agrees with itself. -/
theorem refl (h : s.downlink.harq.Separate) : AgreeOn known s s := ⟨rfl, fun _ _ => rfl, h, h⟩

/-- Agreement is symmetric. -/
theorem symm (h : AgreeOn known s t) : AgreeOn known t s :=
  ⟨h.setup.symm, fun r hr => (h.dossier r hr).symm, h.separate', h.separate⟩

/-- It is transitive. -/
theorem trans (h : AgreeOn known s s') (h' : AgreeOn known s' s'') : AgreeOn known s s'' :=
  ⟨h.setup.trans h'.setup, fun r hr => (h.dossier r hr).trans (h'.dossier r hr), h.separate,
    h'.separate'⟩

/-- It may be about fewer UEs. -/
theorem mono {known' : Rnti → Prop} (h : AgreeOn known s t) (hsub : ∀ r, known' r → known r) :
    AgreeOn known' s t :=
  { h with dossier := fun r hr => h.dossier r (hsub r hr) }

end AgreeOn

/-- From `s` to `s'` the dossier of `r` was edited; the other dossiers and the setup stayed. -/
structure Edits (r : Rnti) (f : Dossier Record → Dossier Record) (s s' : SchedulerState Record) :
    Prop where
  /-- The setup stays. -/
  setup : s'.setup = s.setup
  /-- The dossier of the UE is edited. -/
  own : s'.dossier r = f (s.dossier r)
  /-- The other dossiers stay. -/
  others : ∀ r', r' ≠ r → s'.dossier r' = s.dossier r'
  /-- Every UE has a slot of its own afterwards. -/
  separate : s'.downlink.harq.Separate

/-- The same edit in two cells. -/
theorem AgreeOn.edit (h : AgreeOn known s t) (hs : Edits r f s s') (ht : Edits r f t t') :
    AgreeOn known s' t' where
  setup := by rw [hs.setup, ht.setup, h.setup]
  dossier r' hr' := by
    by_cases heq : r' = r
    · subst heq
      rw [hs.own, ht.own, h.dossier r' hr']
    · rw [hs.others r' heq, ht.others r' heq, h.dossier r' hr']
  separate := hs.separate
  separate' := ht.separate

/-- The others do not notice an edit. -/
theorem Edits.agreeOn (h : Edits r f s s') (hs : s.downlink.harq.Separate) :
    AgreeOn (· ≠ r) s s' where
  setup := h.setup.symm
  dossier r' hr' := (h.others r' hr').symm
  separate := hs
  separate' := h.separate

/-- Two edits of one UE are one edit. -/
theorem Edits.trans (h : Edits r f s s') (h' : Edits r g s' s'') : Edits r (g ∘ f) s s'' where
  setup := h'.setup.trans h.setup
  own := h'.own.trans (congrArg g h.own)
  others r' hr' := (h'.others r' hr').trans (h.others r' hr')
  separate := h'.separate

/-! ## Operations

What each operation of the control plane, and each report, does to the dossier of the UE it names.
-/

section Operations

variable (hs : s.downlink.harq.Separate) (r)

include hs

/-- Changing a UE edits its entry in the table of UEs. -/
theorem edits_modifyUe (f : Ue → Ue) :
    Edits r (fun d => { d with ue := d.ue.map f }) s { s with ues := s.ues.modify r f } where
  setup := rfl
  own := by simp only [dossier, Table.getElem?_modify, if_pos]
  others r' hr' := by simp only [dossier, Table.getElem?_modify, if_neg hr']
  separate := hs

/-- Changing a downlink record edits the record. -/
theorem edits_modifyDownlinkUe (f : DownlinkUe Record → DownlinkUe Record) :
    Edits r (fun d => { d with downlink := d.downlink.map f }) s (s.modifyDownlinkUe r f) where
  setup := rfl
  own := by simp only [dossier, modifyDownlinkUe, Table.getElem?_modify, if_pos]
  others r' hr' := by simp only [dossier, modifyDownlinkUe, Table.getElem?_modify, if_neg hr']
  separate := hs

/-- Changing an uplink record edits the record. -/
theorem edits_modifyUplinkUe (f : UplinkUe → UplinkUe) :
    Edits r (fun d => { d with uplink := d.uplink.map f }) s (s.modifyUplinkUe r f) where
  setup := rfl
  own := by simp only [dossier, modifyUplinkUe, Table.getElem?_modify, if_pos]
  others r' hr' := by simp only [dossier, modifyUplinkUe, Table.getElem?_modify, if_neg hr']
  separate := hs

/-- The policy is told of the bearers that the dossier lists. -/
theorem edits_refreshBearers :
    Edits r (fun d => { d with
      downlink := d.downlink.map fun u =>
        { u with record := policy.setBearers (d.ue.elim [] (·.bearers.values)) u.record } })
      s (refreshBearers policy s r) :=
  { edits_modifyDownlinkUe r hs fun u =>
      { u with record := policy.setBearers (s.bearers r) u.record } with }

/-- New bearers are entered with the UE, and the policy is told. -/
theorem edits_addBearers (bearers : List Bearer) :
    Edits r (fun d => { d with
      ue := d.ue.map fun u =>
        { u with bearers := bearers.foldl (fun t b => t.insert b.lcid b) u.bearers } })
      s (s.addBearers r bearers) :=
  edits_modifyUe r hs _

/-- Released bearers leave the UE and take their queues along. -/
theorem edits_dropBearers (lcids : List Lcid) :
    Edits r (fun d => { d with
      ue := d.ue.map fun u => { u with bearers := lcids.foldl (·.erase ·) u.bearers }
      downlink := d.downlink.map fun u => { u with queues := lcids.foldl (·.erase ·) u.queues } })
      s (s.dropBearers r lcids) := by
  have hues := edits_modifyUe r hs fun u =>
    { u with bearers := lcids.foldl (·.erase ·) u.bearers }
  exact hues.trans (edits_modifyDownlinkUe r hues.separate fun u =>
    { u with queues := lcids.foldl (·.erase ·) u.queues })

/-- A UE that is added starts its dossier. What was known of it before, of its quality and to the
reuse policy, stays. -/
theorem edits_addUe (mode : TransmissionMode) :
    Edits r (Dossier.start policy s.downlink.tti mode) s (addUe policy s r mode) where
  setup := rfl
  own := by
    simp only [dossier, addUe, Table.getElem?_insert, if_pos, DownlinkHarq.entity?_insert hs]
    rfl
  others r' hr' := by
    simp only [dossier, addUe, Table.getElem?_insert, if_neg hr', DownlinkHarq.entity?_insert hs]
  separate := hs.insert

/-- Of a UE that is removed nothing is kept. -/
theorem edits_removeUe : Edits r (fun _ => .empty) s (s.removeUe r) where
  setup := by
    simp only [setup, removeUe, ReusePolicy.unlearned_forget]
    rfl
  own := by
    simp only [dossier, removeUe, DownlinkQuality.erase, UplinkQuality.erase, AgingTable.erase,
      Table.getElem?_erase, if_pos, DownlinkHarq.entity?_erase hs, ReusePolicy.memory_forget]
    rfl
  others r' hr' := by
    simp only [dossier, removeUe, DownlinkQuality.erase, UplinkQuality.erase, AgingTable.erase,
      Table.getElem?_erase, if_neg hr', DownlinkHarq.entity?_erase hs, ReusePolicy.memory_forget]
  separate := hs.erase

/-- Uplink measurements of a UE make its report. -/
theorem edits_replace (samples : List Float) :
    Edits r (fun d => { d with
      sinr := some ⟨UplinkQuality.padded samples s.setup.bandwidth, s.setup.sinrThreshold⟩ }) s
      { s with uplink := { s.uplink with quality := s.uplink.quality.replace r samples } } where
  setup := rfl
  own := by
    simp only [dossier, UplinkQuality.replace, AgingTable.report, Table.getElem?_insert, if_pos]
    rfl
  others r' hr' := by
    simp only [dossier, UplinkQuality.replace, AgingTable.report, Table.getElem?_insert,
      if_neg hr']
  separate := hs

end Operations

end SchedulerState

end LteMac
