import LteMac.Proofs.Downlink.Lockstep
import LteMac.Proofs.Uplink.Lockstep

/-!
# Twins in lockstep

Twins answer all requests about the UEs in question alike, one after the other.

The requests are answered whether they are accepted or not: twins refuse the same ones, for the same
cause, and a refused request leaves both of them as they are. What the twins know of other UEs may
differ all the time, and never shows.

* `SchedulerState.Twins.answered`: a single request;
* `SchedulerState.respond`: the answers to a list of requests, refusals included;
* `SchedulerState.Twins.respond`: these are the same for twins.
-/

namespace LteMac

variable {Record : Type} {policy : Policy Record} {s t : SchedulerState Record}
  {known : Rnti → Prop} {r : Rnti} {q : Request}

namespace SchedulerState

/-- What is answered to the requests of a list, one after the other, and the state afterwards. A
refused request changes nothing. -/
def respond (policy : Policy Record) (s : SchedulerState Record) :
    List Request → List (Request × Except SchedulerError (List Indication)) × SchedulerState Record
  | [] => ([], s)
  | q :: rest =>
    match s.step policy q with
    | .error cause =>
      let (answers, t) := respond policy s rest
      ((q, .error cause) :: answers, t)
    | .ok (s', said) =>
      let (answers, t) := respond policy s' rest
      ((q, .ok said) :: answers, t)

/-- A refused request comes with its cause, and the others are answered in the same state. -/
theorem respond_cons_of_error {cause : SchedulerError} (h : s.step policy q = .error cause)
    (rest : List Request) :
    s.respond policy (q :: rest) =
      ((q, .error cause) :: (s.respond policy rest).1, (s.respond policy rest).2) := by
  rw [respond, h]

/-- An accepted request comes with what was said, and the others are answered in the state it leads
to. -/
theorem respond_cons_of_ok {s' : SchedulerState Record} {said : List Indication}
    (h : s.step policy q = .ok (s', said)) (rest : List Request) :
    s.respond policy (q :: rest) =
      ((q, .ok said) :: (s'.respond policy rest).1, (s'.respond policy rest).2) := by
  rw [respond, h]

namespace Twins

/-- Twins answer requests about the UEs in question alike. -/
theorem answered (h : Twins known s t) (hlocal : policy.Local) (hknown : ∀ r ∈ q.rntis, known r) :
    Answered (Twins known) (s.step policy q) (t.step policy q) := by
  cases q with
  | downlinkTrigger feedback => exact h.downlinkTrigger hlocal (List.forall_mem_map.1 hknown)
  | uplinkTrigger time outcomes => exact h.uplinkTrigger time (List.forall_mem_map.1 hknown)
  | _ => exact h.between rfl hknown

/-- Twins answer a list of requests about the UEs in question alike, and are twins afterwards. -/
theorem respond (h : Twins known s t) (hlocal : policy.Local) {qs : List Request}
    (hqs : ∀ q ∈ qs, ∀ r ∈ q.rntis, known r) :
    (s.respond policy qs).1 = (t.respond policy qs).1 ∧
      Twins known (s.respond policy qs).2 (t.respond policy qs).2 := by
  induction qs generalizing s t with
  | nil => exact ⟨rfl, h⟩
  | cons q rest ih =>
    obtain ⟨hq, hrest⟩ := List.forall_mem_cons.1 hqs
    have hanswered : Answered (Twins known) (s.step policy q) (t.step policy q) :=
      h.answered hlocal hq
    generalize hs : s.step policy q = x at hanswered
    generalize ht : t.step policy q = y at hanswered
    cases hanswered with
    | refused =>
      rw [respond_cons_of_error hs, respond_cons_of_error ht]
      exact (ih h hrest).imp_left (congrArg (List.cons _))
    | accepted hnext =>
      rw [respond_cons_of_ok hs, respond_cons_of_ok ht]
      exact (ih hnext hrest).imp_left (congrArg (List.cons _))

end Twins

end SchedulerState

end LteMac
