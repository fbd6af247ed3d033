import LteMac.Scheduler.Step
import Mathlib.Data.List.Induction

/-!
# Runs of a scheduler

A scheduler starts out empty and answers one request after the other. A refused request gives no new
state, so a *run* is told by the requests it accepted: an `Event` is such a request together with
the states before and after it and what was said, and a `Run` is a list of events, each beginning
where the one before it ended.

Events are kept, and not only the requests, because most of what is said about a scheduler relates
something it says now to something it said or was told before: a retransmission to its first
transmission, an average to what was sent, a report to the grants of its subframe. All of this can
be read off the events. What a single state satisfies is stated for the reachable ones.

* `Run.reachable_invariant`: what holds at the start and survives every accepted request holds in
  every reachable state;
* `Run.before_of_getElem?`: every event of a run happens in a reachable state, namely at the end of
  the run made of the events before it;
* `Run.of_replay`, `of_replay_step`: answering a list of requests is a run, if none of them is
  refused, and what is to be known about its events can be computed.
-/

namespace LteMac

variable {Record : Type}

/-- The downlink blocks an indication grants. -/
def Indication.blocks : Indication → List DataGrant
  | .downlink d => d.data
  | _ => []

/-- The random accesses an indication answers. -/
def Indication.answers : Indication → List AccessGrant
  | .downlink d => d.access
  | _ => []

/-- The UEs a request names. -/
def Request.rntis : Request → List Rnti
  | .connect .. | .installReuse _ | .configureCell .. | .paging _ | .noise => []
  | .configureUe r _ | .reconfigureUe r _ | .configureBearers r _ | .reconfigureBearers r
  | .releaseBearers r _ | .releaseUe r | .queue r _ _ | .controlElements r _ => [r]
  | .randomAccess preambles => preambles.map (·.rnti)
  | .quality reports => reports.map (·.rnti)
  | .downlinkTrigger feedback => feedback.map (·.rnti)
  | .uplinkTrigger _ outcomes => outcomes.map (·.rnti)
  | .schedulingRequests rntis => rntis
  | .uplinkControls controls => controls.map (·.1)
  | .sinr _ _ _ rnti => rnti.toList

/-- A request that asks for the decisions of a subframe. -/
def Request.isTrigger : Request → Bool
  | .downlinkTrigger _ | .uplinkTrigger .. => true
  | _ => false

/-- An accepted request. -/
structure Event (Record : Type) where
  /-- The state that the request found. -/
  before : SchedulerState Record
  /-- What was asked. -/
  request : Request
  /-- The state that it led to. -/
  after : SchedulerState Record
  /-- What was answered. -/
  said : List Indication

namespace Event

/-- The downlink blocks granted in an event. -/
def blocks (e : Event Record) : List DataGrant := e.said.flatMap (·.blocks)

/-- The random accesses answered in an event. -/
def answers (e : Event Record) : List AccessGrant := e.said.flatMap (·.answers)

/-- The downlink feedback received in an event. -/
def received (e : Event Record) : List HarqFeedback :=
  match e.request with
  | .downlinkTrigger feedback => feedback
  | _ => []

end Event

/-- The events `es` lead from the initial state to `s`. -/
inductive Run (policy : Policy Record) (config : SchedulerConfig) :
    List (Event Record) → SchedulerState Record → Prop
  /-- Nothing has happened. -/
  | start : Run policy config [] (.initial config)
  /-- A request is accepted. One that is refused is no event, as it leaves no trace. -/
  | step {es : List (Event Record)} {s s' : SchedulerState Record} {q : Request}
      {said : List Indication} :
      Run policy config es s → s.step policy q = .ok (s', said) →
        Run policy config (es ++ [⟨s, q, s', said⟩]) s'

/-- An event of a longer list is the last one, or one of those before. -/
theorem concat_eq_append_cons {α : Type} {xs before since : List α} {x y : α} :
    xs ++ [x] = before ++ y :: since ↔
      before = xs ∧ y = x ∧ since = [] ∨
        ∃ since', since = since' ++ [x] ∧ xs = before ++ y :: since' := by
  constructor
  · intro h
    cases since using List.reverseRecOn with
    | nil =>
      obtain ⟨rfl, heq⟩ := List.append_inj' h rfl
      exact .inl ⟨rfl, (List.singleton_inj.1 heq).symm, rfl⟩
    | append_singleton since last =>
      rw [← List.cons_append, ← List.append_assoc] at h
      obtain ⟨rfl, heq⟩ := List.append_inj' h rfl
      exact .inr ⟨since, by rw [List.singleton_inj.1 heq], rfl⟩
  · rintro (⟨rfl, rfl, rfl⟩ | ⟨since', rfl, rfl⟩)
    · rfl
    · rw [List.append_assoc, List.cons_append]

/-- The states some run leads to. -/
def Reachable (policy : Policy Record) (config : SchedulerConfig) (s : SchedulerState Record) :
    Prop :=
  ∃ es, Run policy config es s

namespace Run

variable {policy : Policy Record} {config : SchedulerConfig} {es : List (Event Record)}
  {s : SchedulerState Record}

/-- The last state of a run is reachable. -/
theorem reachable (h : Run policy config es s) : Reachable policy config s := ⟨es, h⟩

/-- Induction over a run, for a property of the events so far and the state they lead to. -/
theorem invariant {P : List (Event Record) → SchedulerState Record → Prop}
    (hinit : P [] (.initial config))
    (hstep : ∀ {es s s' q said}, Run policy config es s → P es s →
      s.step policy q = .ok (s', said) → P (es ++ [⟨s, q, s', said⟩]) s')
    (h : Run policy config es s) : P es s := by
  induction h with
  | start => exact hinit
  | step hrun hq ih => exact hstep hrun ih hq

/-- Induction over the reachable states. -/
theorem reachable_invariant {P : SchedulerState Record → Prop} (hinit : P (.initial config))
    (hstep : ∀ {s s' : SchedulerState Record} {q : Request} {said : List Indication},
      P s → s.step policy q = .ok (s', said) → P s')
    (h : Reachable policy config s) : P s := by
  obtain ⟨es, hrun⟩ := h
  exact hrun.invariant (P := fun _ s => P s) hinit fun _ hs hq => hstep hs hq

/-- The run up to an event, and the step the event is. -/
theorem before_of_getElem? (h : Run policy config es s) {n : Nat} {e : Event Record}
    (he : es[n]? = some e) :
    Run policy config (es.take n) e.before ∧
      e.before.step policy e.request = .ok (e.after, e.said) := by
  induction h with
  | start => simp at he
  | @step es s s' q said hrun hq ih =>
    by_cases hn : n < es.length
    · rw [List.getElem?_append_left hn] at he
      rw [List.take_append_of_le_length (Nat.le_of_lt hn)]
      exact ih he
    · -- The last event: everything before it is the run that led to `s`.
      obtain ⟨hlt, rfl⟩ := List.getElem?_eq_some_iff.1 he
      have hlen : n = es.length := by
        simp only [List.length_append, List.length_singleton] at hlt
        omega
      subst hlen
      simpa using ⟨hrun, hq⟩

end Run

/-- Answers the requests of a list, up to the first refusal. -/
def SchedulerState.replay (policy : Policy Record) (s : SchedulerState Record) :
    List Request → Except SchedulerError (List (Event Record) × SchedulerState Record)
  | [] => .ok ([], s)
  | q :: rest =>
    match s.step policy q with
    | .error cause => .error cause
    | .ok (s', said) =>
      (replay policy s' rest).map fun (es, t) => (⟨s, q, s', said⟩ :: es, t)

namespace SchedulerState

variable {policy : Policy Record} {s s' t : SchedulerState Record} {q : Request}
  {qs qs' : List Request} {es es' : List (Event Record)}

/-- No requests lead nowhere. -/
theorem replay_nil_eq_ok : s.replay policy [] = .ok (es, t) ↔ [] = es ∧ s = t := by
  simp [replay]

/-- A list of requests is answered if the first one is, and the others are in the state it leads to.
-/
theorem replay_cons_eq_ok :
    s.replay policy (q :: qs) = .ok (es, t) ↔
      ∃ s' said rest, s.step policy q = .ok (s', said) ∧
        s'.replay policy qs = .ok (rest, t) ∧ ⟨s, q, s', said⟩ :: rest = es := by
  rw [replay]
  cases hq : s.step policy q with
  | error cause => simp
  | ok out =>
    obtain ⟨s', said⟩ := out
    cases hrest : s'.replay policy qs with
    | error cause => simp_all [Except.map]
    | ok out =>
      obtain ⟨rest, t'⟩ := out
      constructor
      · intro h
        obtain ⟨rfl, rfl⟩ : ⟨s, q, s', said⟩ :: rest = es ∧ t' = t := by
          simpa [hrest, Except.map] using h
        exact ⟨s', said, rest, rfl, hrest, rfl⟩
      · rintro ⟨s₁, said', rest', hout, hrest', rfl⟩
        obtain ⟨rfl, rfl⟩ := Prod.mk.inj (Except.ok.inj hout)
        obtain ⟨rfl, rfl⟩ := Prod.mk.inj (Except.ok.inj (hrest.symm.trans hrest'))
        simp [hrest, Except.map]

/-- The requests of one list after those of another. -/
theorem replay_append (h : s.replay policy qs = .ok (es, s'))
    (h' : s'.replay policy qs' = .ok (es', t)) :
    s.replay policy (qs ++ qs') = .ok (es ++ es', t) := by
  induction qs generalizing s es with
  | nil =>
    obtain ⟨rfl, rfl⟩ := replay_nil_eq_ok.1 h
    exact h'
  | cons q qs ih =>
    obtain ⟨s₁, said, rest, hq, hrest, rfl⟩ := replay_cons_eq_ok.1 h
    exact replay_cons_eq_ok.2 ⟨s₁, said, rest ++ es', hq, ih hrest, rfl⟩

/-- The events answer the requests. -/
theorem replay_requests (h : s.replay policy qs = .ok (es, t)) : es.map (·.request) = qs := by
  induction qs generalizing s es with
  | nil =>
    obtain ⟨rfl, -⟩ := replay_nil_eq_ok.1 h
    rfl
  | cons q qs ih =>
    obtain ⟨s', said, rest, -, hrest, rfl⟩ := replay_cons_eq_ok.1 h
    rw [List.map_cons, ih hrest]

/-- What each of the requests keeps. -/
theorem replay_keeps {P : SchedulerState Record → Prop}
    (hkeep : ∀ q ∈ qs, ∀ (s s' : SchedulerState Record) (said : List Indication),
      s.step policy q = .ok (s', said) → P s → P s')
    (h : s.replay policy qs = .ok (es, t)) (hs : P s) : P t := by
  induction qs generalizing s es with
  | nil =>
    obtain ⟨-, rfl⟩ := replay_nil_eq_ok.1 h
    exact hs
  | cons q qs ih =>
    obtain ⟨hfirst, hkeep⟩ := List.forall_mem_cons.1 hkeep
    obtain ⟨s₁, said, rest, hq, hrest, -⟩ := replay_cons_eq_ok.1 h
    exact ih hkeep hrest (hfirst s s₁ said hq hs)

/-- Where none of the requests is refused, all of them are answered. -/
theorem exists_replay {P : SchedulerState Record → Prop}
    (hstep : ∀ q ∈ qs, ∀ s : SchedulerState Record, P s →
      ∃ s' said, s.step policy q = .ok (s', said) ∧ P s')
    (hs : P s) : ∃ es t, s.replay policy qs = .ok (es, t) ∧ P t := by
  induction qs generalizing s with
  | nil => exact ⟨[], s, rfl, hs⟩
  | cons q qs ih =>
    obtain ⟨hfirst, hstep⟩ := List.forall_mem_cons.1 hstep
    obtain ⟨s', said, hq, hs'⟩ := hfirst s hs
    obtain ⟨es, t, hes, ht⟩ := ih hstep hs'
    exact ⟨_, t, replay_cons_eq_ok.2 ⟨s', said, es, hq, hes, rfl⟩, ht⟩

end SchedulerState

/-- A run goes on with the answers to more requests. -/
theorem Run.append_replay {policy : Policy Record} {config : SchedulerConfig}
    {es es' : List (Event Record)} {s t : SchedulerState Record} {qs : List Request}
    (h : Run policy config es s) (hqs : s.replay policy qs = .ok (es', t)) :
    Run policy config (es ++ es') t := by
  -- From the front, as the requests are answered; the run so far is the prefix `es`.
  induction qs generalizing es es' s with
  | nil =>
    obtain ⟨rfl, rfl⟩ := SchedulerState.replay_nil_eq_ok.1 hqs
    simpa using h
  | cons q qs ih =>
    obtain ⟨s', said, rest, hq, hrest, rfl⟩ := SchedulerState.replay_cons_eq_ok.1 hqs
    simpa using ih (h.step hq) hrest

/-- An accepted request leads from a reachable state to a reachable one. -/
theorem Reachable.step {policy : Policy Record} {config : SchedulerConfig}
    {s s' : SchedulerState Record} {q : Request} {said : List Indication}
    (h : Reachable policy config s) (hq : s.step policy q = .ok (s', said)) :
    Reachable policy config s' := by
  obtain ⟨es, hrun⟩ := h
  exact ⟨_, hrun.step hq⟩

/-- A list of requests none of which is refused is a run, whose events can be checked. -/
theorem Run.of_replay (policy : Policy Record) (config : SchedulerConfig) (qs : List Request)
    (check : List (Event Record) → Bool)
    (h : ((SchedulerState.initial config).replay policy qs).toOption.any (check ·.1) = true) :
    ∃ es s, Run policy config es s ∧ check es = true := by
  cases hqs : (SchedulerState.initial config).replay policy qs with
  | error cause => simp [hqs, Except.toOption] at h
  | ok out =>
    obtain ⟨es, s⟩ := out
    have hrun : Run policy config es s := by simpa using Run.start.append_replay hqs
    exact ⟨es, s, hrun, by simpa [hqs, Except.toOption] using h⟩

/-- The same with one more request, whose event is checked after those of the run before it. -/
theorem Run.of_replay_step (policy : Policy Record) (config : SchedulerConfig)
    (qs : List Request) (q : Request) (check : List (Event Record) → Event Record → Bool)
    (h : (((SchedulerState.initial config).replay policy qs).toOption.any fun (es, s) =>
      (s.step policy q).toOption.any fun (s', said) => check es ⟨s, q, s', said⟩) = true) :
    ∃ es e, Run policy config es e.before ∧ e.before.step policy q = .ok (e.after, e.said) ∧
      check es e = true := by
  cases hqs : (SchedulerState.initial config).replay policy qs with
  | error cause => simp [hqs, Except.toOption] at h
  | ok out =>
    obtain ⟨es, s⟩ := out
    have hrun : Run policy config es s := by simpa using Run.start.append_replay hqs
    cases hq : s.step policy q with
    | error cause => simp [hqs, hq, Except.toOption] at h
    | ok next =>
      obtain ⟨s', said⟩ := next
      exact ⟨es, ⟨s, q, s', said⟩, hrun, hq, by simpa [hqs, hq, Except.toOption] using h⟩

end LteMac
