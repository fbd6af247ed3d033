import LteMac.Proofs.Uplink.Spectrum
import Mathlib.Algebra.GroupWithZero.Nat
import Mathlib.Logic.Function.Basic

/-!
# The timetable of an uplink

Uplink retransmission runs in a cycle of eight subframes. The *timetable* of a UE tells, from the
events of a run alone, which block each subframe of the cycle holds: by the number of uplink
triggers since, from the present one (0) to the one that is reported on (7). A block remembers the
events that granted it, so that two blocks with equal grants are told apart.

* `timetable`: the timetable of a UE after a run of events;
* `Timetable.Describes`: the processes of an entity are what a timetable says;
* `Timetable.Describes.place`, `clear`, `judge`, `tick`: what an entity does with its processes is
  what a timetable does with its blocks.
-/

namespace LteMac

/-! ## Blocks and their places -/

/-- A block of a UE on its way. -/
structure Transit where
  /-- How it was first granted. -/
  grant : UplinkGrant
  /-- How often it was to be sent again. -/
  retries : Nat
  /-- The events that granted it, by their numbers in the run. -/
  sent : List Nat
deriving DecidableEq

namespace Transit

/-- A block that event `n` grants for the first time. -/
def first (n : Nat) (g : UplinkGrant) : Transit := ⟨g, 0, [n]⟩

/-- A failed block that is to be sent again in event `n`, which may not have room for it. -/
def retried (b : Transit) (n : Nat) (granted : Bool) : Transit :=
  { b with
    retries := b.retries + 1
    sent := if granted then b.sent ++ [n] else b.sent }

/-- The grant of a block that is sent again. -/
def again (b : Transit) : UplinkGrant := { b.grant with ndi := 0 }

/-- The event that granted a block for the first time. -/
def origin? (b : Transit) : Option Nat := b.sent.head?

/-- What a process remembers of a block. -/
def process (b : Transit) : UplinkProcess := ⟨b.retries, some b.grant⟩

end Transit

instance : NeZero uplinkProcesses := ⟨Nat.succ_ne_zero 7⟩

/-- The blocks of a UE, by the number of uplink triggers since the subframe that holds them. -/
abbrev Timetable := Fin uplinkProcesses → Option Transit

namespace Timetable

/-- Nothing is on its way. -/
def empty : Timetable := fun _ => none

/-- The subframe that is reported on. -/
def due : Fin uplinkProcesses := ⟨outcomeDelay, by decide⟩

/-- Puts a block into the present subframe. -/
def place (t : Timetable) (b : Transit) : Timetable := Function.update t 0 (some b)

/-- Takes the block away that is reported on. -/
def clear (t : Timetable) : Timetable := Function.update t due none

/-- Moves on to the next subframe. -/
def tick (t : Timetable) : Timetable := fun k => t (k - 1)

/-- Acts on the verdict of event `n` on the block that is reported on: a delivered block is done
with, and so is a failed one that was retried often enough; any other failed block moves to the
present subframe, whether there is room for it or not. -/
def judge (t : Timetable) (n : Nat) (verdict : Option Bool) (granted : Bool) : Timetable :=
  match verdict with
  | none => t
  | some true => t.clear
  | some false =>
    match t due with
    | none => t
    | some b =>
      if maxRetransmissions ≤ b.retries then t.clear else t.clear.place (b.retried n granted)

end Timetable

/-! ## Events -/

variable {Record : Type}

namespace Event

/-- The uplink blocks an event grants. -/
def grants (e : Event Record) : List UplinkGrant := e.said.flatMap (·.grants)

/-- Whether the block of a UE was received, by the first outcome of an event that tells. -/
def verdict? (e : Event Record) (r : Rnti) : Option Bool :=
  match e.request with
  | .uplinkTrigger _ outcomes => (outcomes.filterMap UplinkTrigger.acknowledgement?).lookup r
  | _ => none

/-- What event `n` does to the timetable of the UE `r`. -/
def timetable (e : Event Record) (n : Nat) (r : Rnti) (t : Timetable) : Timetable :=
  match e.request with
  | .releaseUe r' => if r' = r then .empty else t
  | .downlinkTrigger _ =>
    if e.before.ues.contains r then
      (((e.answers.filter (·.rnti = r)).map Access.uplinkGrant).map (.first n)).foldl .place t
    else t
  | .uplinkTrigger .. =>
    let granted := e.grants.filter (·.rnti = r)
    let judged := t.judge n (e.verdict? r) (granted.any (·.ndi = 0))
    (((granted.filter (·.ndi = 1)).map (.first n)).foldl .place judged).tick
  | _ => t

end Event

/-- The timetable of a UE after some events. -/
def timetable (es : List (Event Record)) (r : Rnti) : Timetable :=
  es.zipIdx.foldl (fun t e => e.1.timetable e.2 r t) .empty

theorem timetable_concat (es : List (Event Record)) (e : Event Record) (r : Rnti) :
    timetable (es ++ [e]) r = e.timetable es.length r (timetable es r) := by
  simp [timetable, List.zipIdx_append]

/-! ## Entities -/

namespace Timetable

variable {t : Timetable} {e : UplinkEntity} {b : Transit}

/-- The processes of an entity hold the blocks of a timetable. -/
structure Describes (t : Timetable) (e : UplinkEntity) : Prop where
  /-- The present process is one of the cycle. -/
  current : e.current < uplinkProcesses
  /-- Each slot of the timetable has the process that is as far behind the present one. -/
  process : ∀ k : Fin uplinkProcesses,
    e.process (e.current + uplinkProcesses - k) = (t k).elim .free (·.process)

theorem describes_fresh : empty.Describes .fresh where
  current := by decide
  process k := Vector.getElem_replicate _

namespace Describes

/-- Setting the process of a subframe of the cycle. -/
theorem set (h : t.Describes e) {k₀ : Fin uplinkProcesses} {id : Nat}
    (hid : id = (e.current + uplinkProcesses - k₀) % uplinkProcesses) (b : Option Transit) :
    Describes (Function.update t k₀ b) (e.set id (b.elim .free (·.process))) where
  current := h.current
  process k := by
    change (e.set id (b.elim .free (·.process))).process (e.current + uplinkProcesses - k) = _
    rw [UplinkEntity.process_set, Function.update_apply]
    by_cases hk : k = k₀
    · rw [if_pos hk, hid, hk, if_pos rfl]
    · -- Different subframes of the cycle have different processes.
      have hne : id ≠ (e.current + uplinkProcesses - k) % uplinkProcesses := by
        have hlt := k.isLt
        have hlt₀ := k₀.isLt
        rw [Fin.ext_iff] at hk
        simp only [uplinkProcesses] at *
        omega
      rw [if_neg hne, if_neg hk, h.process]

/-- A block in the present subframe. -/
theorem place (h : t.Describes e) (b : Transit) :
    (t.place b).Describes (e.set e.current b.process) := by
  have hid : e.current = (e.current + uplinkProcesses - (0 : Fin uplinkProcesses)) %
      uplinkProcesses := by
    rw [Fin.val_zero, Nat.sub_zero, Nat.add_mod_right, Nat.mod_eq_of_lt h.current]
  exact h.set hid (some b)

/-- First transmissions in the present subframe. -/
theorem foldl_place (h : t.Describes e) (n : Nat) (gs : List UplinkGrant) :
    Describes ((gs.map (.first n)).foldl .place t) (gs.foldl .store e) := by
  induction gs generalizing t e with
  | nil => exact h
  | cons g gs ih => exact ih (h.place (.first n g))

theorem clear (h : t.Describes e) : t.clear.Describes e.acknowledge := h.set rfl none

/-- What is on the reported process. -/
theorem reported (h : t.Describes e) :
    e.process e.reported = (t due).elim .free (·.process) := by
  rw [← h.process due, UplinkEntity.process, UplinkEntity.process]
  congr 2
  exact UplinkEntity.reported_lt

theorem retry_of_none (h : t.Describes e) (hnone : t due = none) : e.retry = (.noBlock, e) := by
  have hfree : (e.process e.reported).grant = none := by
    rw [h.reported, hnone]
    rfl
  rw [UplinkEntity.retry, hfree]

theorem retry_of_some (h : t.Describes e) (hsome : t due = some b) :
    e.retry =
      if maxRetransmissions ≤ b.retries then (.dropped, e.acknowledge)
      else (.again b.grant, e.acknowledge.set e.current ⟨b.retries + 1, some b.grant⟩) := by
  have hprocess : e.process e.reported = b.process := by
    rw [h.reported, hsome]
    rfl
  rw [UplinkEntity.retry, hprocess]
  rfl

/-- A verdict on the reported block. -/
theorem judge (h : t.Describes e) (n : Nat) (granted : Bool) :
    (t.judge n (some true) granted).Describes e.acknowledge ∧
      (t.judge n (some false) granted).Describes e.retry.2 := by
  refine ⟨h.clear, ?_⟩
  cases hdue : t due with
  | none =>
    simp only [h.retry_of_none hdue, Timetable.judge, hdue]
    exact h
  | some b =>
    simp only [h.retry_of_some hdue, Timetable.judge, hdue]
    split
    · exact h.clear
    · exact h.clear.place (b.retried n granted)

/-- The next subframe: the process of the present one is now that of one trigger ago, and the
reported one is present again. -/
theorem tick (h : t.Describes e) : t.tick.Describes e.advance where
  current := Nat.mod_lt _ (by decide)
  process k := by
    rw [Timetable.tick, ← h.process (k - 1)]
    change e.process (e.advance.current + uplinkProcesses - k) = _
    rw [UplinkEntity.process, UplinkEntity.process]
    congr 2
    have hk := k.isLt
    have hcurrent := h.current
    have hsub : ((k - 1 : Fin uplinkProcesses) : Nat) =
        (uplinkProcesses - 1 + k) % uplinkProcesses := Fin.val_sub k 1
    rw [hsub, UplinkEntity.advance]
    simp only [uplinkProcesses] at *
    omega

end Describes

/-- What the uplink keeps of a UE is what a timetable says; of an unknown one it keeps nothing. -/
def Tells (t : Timetable) : Option UplinkUe → Prop
  | none => t = .empty
  | some u => t.Describes u.harq

/-- A timetable only tells of the processes of a UE. -/
theorem Tells.congr {u u' : Option UplinkUe} (h : t.Tells u)
    (heq : u'.map (·.harq) = u.map (·.harq)) : t.Tells u' := by
  cases u with
  | none =>
    obtain rfl := Option.map_eq_none_iff.1 heq
    exact h
  | some u =>
    obtain ⟨u', rfl, hharq⟩ := Option.map_eq_some_iff.1 heq
    change t.Describes u'.harq
    rw [hharq]
    exact h

/-! ## Verdicts -/

variable {n : Nat} {verdict : Option Bool} {granted : Bool}

theorem due_ne_zero : due ≠ 0 := by decide

theorem judge_empty : empty.judge n verdict granted = .empty := by
  rcases verdict with _ | _ | _
  · rfl
  · rfl
  · exact Function.update_eq_self due empty

/-- Nothing is left of the reported block after a verdict. -/
theorem due_judge (hverdict : verdict ≠ none) : t.judge n verdict granted due = none := by
  rcases verdict with _ | _ | _
  · exact absurd rfl hverdict
  · cases hdue : t due with
    | none => simp only [judge, hdue]
    | some b =>
      simp only [judge, hdue]
      split
      · exact Function.update_self ..
      · rw [place, Function.update_of_ne due_ne_zero]
        exact Function.update_self ..
  · exact Function.update_self due none t

theorem clear_eq_self (hdue : t due = none) : t.clear = t :=
  (congrArg (Function.update t due) hdue.symm).trans (Function.update_eq_self due t)

end Timetable

end LteMac
