import LteMac.Downlink.Trigger
import LteMac.Proofs.Downlink.NewData

/-!
# Downlink passes over known UEs

The passes of a downlink trigger only touch whom the feedback names and whom new data is for. Two
cells that agree on these UEs go through them alike, whatever else there is in their tables and in
whichever slots their processes are.

The processes of the downlink live in an arena, and which slot a UE has depends on the order in
which all of them came and went. So two cells that agree on a UE will in general have its processes
in different slots, and the agreement is about what is found under an identity
(`DownlinkHarq.AgreeOn`). It also says of both arenas that no two UEs share a slot, without which a
write for one UE could be seen by another.

The layers in which UEs are served are a function in the setting of the pass. It may differ on UEs
that are not candidates, and is only asked about the others.

* `DownlinkHarq.AgreeOn`: two arenas with the same processes of the UEs in question;
* `Retransmission.handleAll_agreeOn`, `NewData.foldl_serve_agreeOn`: the passes keep the agreement;
* `NewData.ues_foldl_serve`: whom a pass does not serve keeps its record.
-/

namespace LteMac

variable {known : Rnti → Prop} {r : Rnti}

/-! ## Processes

Two arenas agree on a UE if its entity is the same in both, wherever it is kept. Then every question
about its processes has the same answer, and writing to them keeps the agreement.
-/

namespace DownlinkHarq

variable {h h' : DownlinkHarq} {id : Nat}

/-- Two arenas hold the same processes for the UEs in question. -/
structure AgreeOn (known : Rnti → Prop) (h h' : DownlinkHarq) : Prop where
  separate : h.Separate
  separate' : h'.Separate
  entity : ∀ r, known r → h.entity? r = h'.entity? r

namespace AgreeOn

variable (hh : h.AgreeOn known h')

include hh

/-- A process is found in both or in neither. -/
theorem process? (hr : known r) (id : Nat) : h.process? r id = h'.process? r id := by
  rw [DownlinkHarq.process?, hh.entity r hr, DownlinkHarq.process?]

/-- A UE has a process to spare in both or in neither. -/
theorem isAvailable (hr : known r) : h.isAvailable r = h'.isAvailable r := by
  rw [DownlinkHarq.isAvailable, hh.entity r hr, DownlinkHarq.isAvailable]

/-- A process of a UE in question is about to expire in both or in neither. -/
theorem contains_expiring (hr : known r) (id : Nat) :
    h.expiring.contains (r, id) = h'.expiring.contains (r, id) := by
  rw [Bool.eq_iff_iff, List.contains_iff_mem, List.contains_iff_mem, mem_expiring, mem_expiring,
    hh.process? hr]

/-- Writing the entity of a UE. -/
theorem put (hr : known r) (e : DownlinkEntity) : (h.put r e).AgreeOn known (h'.put r e) where
  separate := hh.separate.put
  separate' := hh.separate'.put
  entity r' hr' := by
    rw [entity?_put hh.separate, entity?_put hh.separate', hh.entity r hr, hh.entity r' hr']

/-- Writing a process of a UE. -/
theorem set (hr : known r) (id : Nat) (p : DownlinkProcess) :
    (h.set r id p).AgreeOn known (h'.set r id p) := by
  rw [DownlinkHarq.set, DownlinkHarq.set]
  rw [hh.entity r hr]
  cases h'.entity? r with
  | none => exact hh
  | some e => exact hh.put hr _

/-- A known UE moves on to the same process. -/
theorem advance? (hr : known r) :
    Option.Rel (fun x x' => x.1 = x'.1 ∧ x.2.AgreeOn known x'.2) (h.advance? r)
      (h'.advance? r) := by
  rw [DownlinkHarq.advance?, DownlinkHarq.advance?]
  rw [hh.entity r hr]
  cases h'.entity? r with
  | none => exact .none
  | some e =>
    simp only [Option.bind_eq_bind, Option.bind_some]
    cases e.next? with
    | none => exact .none
    | some id => exact .some ⟨rfl, hh.put hr _⟩

end AgreeOn

end DownlinkHarq

/-! ## Retransmissions

Feedback is about one process of one UE. It is decided by that process and by the groups that are
left, which are the same in both cells.
-/

namespace Retransmission

variable {reuse : ReusePolicy} {round round' : Round}

/-- Two passes differ at most in the processes of UEs that are not in question. -/
structure Round.AgreeOn (known : Rnti → Prop) (round round' : Round) : Prop where
  harq : round.harq.AgreeOn known round'.harq
  occupancy : round.occupancy = round'.occupancy
  kept : round.kept = round'.kept
  sent : round.sent = round'.sent

/-- Acting upon feedback of a UE in question. -/
theorem Round.AgreeOn.handle (h : round.AgreeOn known round') {f : HarqFeedback}
    (hf : known f.rnti) : (round.handle reuse f).AgreeOn known (round'.handle reuse f) := by
  obtain ⟨harq, o, kept, sent⟩ := round
  obtain ⟨harq', o', kept', sent'⟩ := round'
  obtain ⟨hharq, rfl, rfl, rfl⟩ := h
  have hkeep : Round.AgreeOn known ⟨harq, o, kept, sent⟩ ⟨harq', o, kept, sent⟩ :=
    ⟨hharq, rfl, rfl, rfl⟩
  have hfree : Round.AgreeOn known (Round.free ⟨harq, o, kept, sent⟩ f.rnti f.process)
      (Round.free ⟨harq', o, kept, sent⟩ f.rnti f.process) :=
    ⟨hharq.set hf _ _, rfl, rfl, rfl⟩
  -- All that is read from the arena is the process the feedback is about.
  simp only [Round.handle, hharq.process? hf]
  cases harq'.process? f.rnti f.process with
  | none => exact hkeep
  | some p =>
    dsimp only
    split
    · exact hkeep
    split
    · exact hfree
    simp only [Round.retry, Round.served]
    split
    · exact ⟨hharq, rfl, rfl, rfl⟩
    cases p.grant with
    | none => exact hfree
    | some grant =>
      dsimp only
      split
      · exact hfree
      cases place? reuse o f.rnti grant.bitmap.indices with
      | none => exact ⟨hharq, rfl, rfl, rfl⟩
      | some rbgs => exact ⟨hharq.set hf _ _, rfl, rfl, rfl⟩

/-- The pass over feedback on UEs in question keeps the agreement. -/
theorem handleAll_agreeOn {harq harq' : DownlinkHarq} (h : harq.AgreeOn known harq')
    (o : Occupancy) {feedback : List HarqFeedback} (hfeedback : ∀ f ∈ feedback, known f.rnti) :
    (handleAll reuse harq o feedback).AgreeOn known (handleAll reuse harq' o feedback) := by
  rw [handleAll, handleAll]
  have hstart : Round.AgreeOn known ⟨harq, o, [], []⟩ ⟨harq', o, [], []⟩ := ⟨h, rfl, rfl, rfl⟩
  generalize (⟨harq, o, [], []⟩ : Round) = round at hstart ⊢
  generalize (⟨harq', o, [], []⟩ : Round) = round' at hstart ⊢
  induction feedback generalizing round round' with
  | nil => exact hstart
  | cons f rest ih =>
    obtain ⟨hf, hrest⟩ := List.forall_mem_cons.1 hfeedback
    exact ih hrest _ _ (hstart.handle hf)

end Retransmission

/-! ## New data

A candidate is served from its own record, on the groups that it is offered. What it takes from the
others is the same in both cells.
-/

namespace NewData

variable {Record : Type} {setting : Setting} {layers : Rnti → Nat} {round round' : Round Record}

/-- Two passes differ at most in the records and processes of UEs that are not in question. -/
structure Round.AgreeOn (known : Rnti → Prop) (round round' : Round Record) : Prop where
  ues : ∀ r, known r → round.ues[r]? = round'.ues[r]?
  harq : round.harq.AgreeOn known round'.harq
  feedback : round.feedback = round'.feedback
  occupancy : round.occupancy = round'.occupancy
  sent : round.sent = round'.sent

/-- A known UE gets the same process for its block. -/
theorem process?_agreeOn {h h' : DownlinkHarq} (hh : h.AgreeOn known h') (hr : known r) :
    Option.Rel (fun x x' => x.1 = x'.1 ∧ x.2.AgreeOn known x'.2) (setting.process? h r)
      ({ setting with layers }.process? h' r) := by
  rw [Setting.process?, Setting.process?]
  cases setting.harqEnabled with
  | true => exact hh.advance? hr
  | false => exact .some ⟨rfl, hh⟩

/-- A UE in question is sent the same block, or none in both. -/
theorem Round.AgreeOn.send? (h : round.AgreeOn known round') (hr : known r)
    (hlayers : layers r = setting.layers r) (u : DownlinkUe Record) (rbgs : List Nat) :
    Option.Rel (Round.AgreeOn known) (setting.send? round r u rbgs)
      ({ setting with layers }.send? round' r u rbgs) := by
  have hcqis : { setting with layers }.layerCqis r rbgs = setting.layerCqis r rbgs := by
    simp only [Setting.layerCqis, hlayers]
    rfl
  have hproc : Option.Rel _ (setting.process? round.harq r)
      ({ setting with layers }.process? round'.harq r) := process?_agreeOn h.harq hr
  rw [Setting.send?, Setting.send?]
  rw [hcqis]
  dsimp only
  split
  · exact .none
  generalize setting.process? round.harq r = x at hproc ⊢
  generalize { setting with layers }.process? round'.harq r = x' at hproc ⊢
  -- Either both find a process for the block, the same one, or none.
  cases hproc with
  | none => exact .none
  | @some x x' hx =>
    obtain ⟨id, harq⟩ := x
    obtain ⟨id', harq'⟩ := x'
    obtain ⟨rfl, hharq⟩ : id = id' ∧ harq.AgreeOn known harq' := hx
    refine .some ⟨fun r' hr' => ?_, ?_, ?_, h.occupancy, ?_⟩
    · dsimp only
      rw [Table.getElem?_insert, Table.getElem?_insert, h.ues r' hr']
      rfl
    · dsimp only
      split
      · exact hharq.set hr _ _
      · exact hharq
    · dsimp only
      rw [h.feedback]
    · dsimp only
      rw [h.sent]
      rfl

/-- Related options have related values, if the defaults are related. -/
theorem rel_getD {α : Type} {R : α → α → Prop} {x x' : Option α} {a a' : α} (hx : x.Rel R x')
    (ha : R a a') : R (x.getD a) (x'.getD a') := by
  cases hx with
  | none => exact ha
  | some h => exact h

/-- Serving a UE in question. -/
theorem Round.AgreeOn.serve (h : round.AgreeOn known round') (hr : known r)
    (hlayers : layers r = setting.layers r) (proposal : Allocation) :
    (setting.serve proposal round r).AgreeOn known
      ({ setting with layers }.serve proposal round' r) := by
  simp only [Setting.serve, h.ues r hr, ← h.occupancy]
  cases round'.ues[r]? with
  | none => exact h
  | some u =>
    dsimp only
    split
    · exact h
    generalize claim setting.reuse r round.occupancy (proposal.getD r []) = claimed
    have hclaimed : Round.AgreeOn known { round with occupancy := claimed.1 }
        { round' with occupancy := claimed.1 } := ⟨h.ues, h.harq, h.feedback, rfl, h.sent⟩
    exact rel_getD (hclaimed.send? hr hlayers u claimed.2.mergeSort) h

/-- The pass over candidates in question keeps the agreement. -/
theorem foldl_serve_agreeOn (h : round.AgreeOn known round') {cs : List Rnti}
    (hcs : ∀ c ∈ cs, known c) (hlayers : ∀ c ∈ cs, layers c = setting.layers c)
    (proposal : Allocation) :
    (cs.foldl (setting.serve proposal) round).AgreeOn known
      (cs.foldl ({ setting with layers }.serve proposal) round') := by
  induction cs generalizing round round' with
  | nil => exact h
  | cons c cs ih =>
    obtain ⟨hc, hcs⟩ := List.forall_mem_cons.1 hcs
    obtain ⟨hlayer, hlayers⟩ := List.forall_mem_cons.1 hlayers
    exact ih (h.serve hc hlayer proposal) hcs hlayers

/-- Serving a candidate changes no record but its own. -/
theorem ues_serve {c : Rnti} (hne : r ≠ c) (proposal : Allocation) (round : Round Record) :
    (setting.serve proposal round c).ues[r]? = round.ues[r]? := by
  obtain heq | ⟨u, process, harq, -, -, -, heq⟩ :=
    setting.skips_or_carries proposal round c
  · rw [heq]
  · rw [heq]
    exact Table.getElem?_insert.trans (if_neg hne)

/-- Whom a pass does not serve keeps its record. -/
theorem ues_foldl_serve {cs : List Rnti} (hr : r ∉ cs) (proposal : Allocation)
    (round : Round Record) :
    (cs.foldl (setting.serve proposal) round).ues[r]? = round.ues[r]? := by
  induction cs generalizing round with
  | nil => rfl
  | cons c cs ih =>
    obtain ⟨hne, hr⟩ := List.ne_and_not_mem_of_not_mem_cons hr
    exact (ih hr _).trans (ues_serve hne proposal round)

/-- No other feedback waits after a pass. -/
theorem feedback_foldl_serve (cs : List Rnti) (proposal : Allocation) (round : Round Record) :
    ∀ f ∈ (cs.foldl (setting.serve proposal) round).feedback, f ∈ round.feedback := by
  induction cs generalizing round with
  | nil => exact fun _ hf => hf
  | cons c cs ih =>
    intro f hf
    have hf := ih _ f hf
    have hserved := served_serve setting proposal round c
    generalize setting.serve proposal round c = next at hserved hf
    cases hserved with
    | skipped => exact hf
    | sent =>
      dsimp only at hf
      split at hf
      · exact (List.mem_filter.1 hf).1
      · exact hf

end NewData

end LteMac
