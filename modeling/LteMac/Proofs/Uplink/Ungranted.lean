import LteMac.Proofs.Uplink.Permission
import LteMac.Proofs.Uplink.Present

/-!
# Subframes without a grant

What is reported on a subframe in which a UE was granted nothing should concern no block. But the
process of such a subframe need not be empty. A failed block is moved there before it turns out that
there is no room for it, and it stays there; and a block that nobody told of is on that process
still, from the cycle before. A failure reported seven triggers later then has an old block granted
again.

These are the only two ways (`Left`), and the statement says so in both directions: for a subframe
without grants and answers, the grants that a failure reported on it leads to are exactly those of
blocks which were left there, had retries to spare, and find room now. The second way is only found
by going once around: the process of a subframe is the one that was reported on in the trigger
before it, so what was there and was not told of has not moved.

* `timetable_zero_iff`: what the present subframe holds before its trigger, if no answer is awaited;
* `Ungranted.left_iff`: what an uplink trigger leaves of a UE that it grants nothing;
* `Run.again_of_ungranted`: which grants a failure of such a subframe leads to.
-/

namespace LteMac

variable {Record : Type} {policy : Policy Record} {config : SchedulerConfig}
  {es es' : List (Event Record)} {e e' : Event Record} {s : SchedulerState Record} {r : Rnti}
  {n i j : Nat} {b : Transit}

/-! ## The present subframe -/

namespace Event

variable {t : Timetable}

/-- A trigger comes to the process that was just reported on, which holds what nobody told of. -/
theorem timetable_zero_of_uplink (hup : e.isUplink = true) :
    e.timetable n r t 0 = if e.verdict? r = none then t Timetable.due else none := by
  obtain ⟨before, q, after, said⟩ := e
  cases q with
  | uplinkTrigger time outcomes =>
    refine (Timetable.foldl_place_of_ne Timetable.due_ne_zero _).trans ?_
    split
    next hnone =>
      rw [hnone]
      rfl
    next hverdict => exact Timetable.due_judge hverdict
  | _ => cases hup

/-- A trigger that grants a UE nothing leaves what its judgement puts into the present subframe. -/
theorem timetable_one_of_ungranted (hup : e.isUplink = true) (hnone : ∀ d ∈ e.grants, d.rnti ≠ r) :
    e.timetable n r t 1 = t.judge n (e.verdict? r) false 0 := by
  have hfilter : e.grants.filter (·.rnti = r) = [] :=
    List.filter_eq_nil_iff.2 fun d hd hr => hnone d hd (of_decide_eq_true hr)
  obtain ⟨before, q, after, said⟩ := e
  cases q with
  | uplinkTrigger time outcomes =>
    unfold timetable
    dsimp only
    rw [hfilter]
    exact Timetable.tick_succ _ 0
  | _ => cases hup

end Event

/-- The block `b` of the UE `r` was reported on in the last uplink trigger, but nobody told of it,
and the UE was not released since. -/
def Untold (es : List (Event Record)) (r : Rnti) (b : Transit) : Prop :=
  ∃ before e since, es = before ++ e :: since ∧ e.isUplink = true ∧ e.verdict? r = none ∧
    timetable before r Timetable.due = some b ∧
    ∀ e' ∈ since, e'.isUplink = false ∧ e'.releases r = false

/-- An uplink trigger that tells nothing of the block it is due for. -/
theorem untold_concat_of_uplink (hup : e.isUplink = true) :
    Untold (es ++ [e]) r b ↔ e.verdict? r = none ∧ timetable es r Timetable.due = some b := by
  constructor
  · rintro ⟨before, e₀, since, hes, -, hverdict, hdue, hsince⟩
    obtain ⟨rfl, rfl, -⟩ | ⟨since, rfl, -⟩ := concat_eq_append_cons.1 hes
    · exact ⟨hverdict, hdue⟩
    · rw [(hsince e (by simp)).1] at hup
      cases hup
  · rintro ⟨hverdict, hdue⟩
    exact ⟨es, e, [], rfl, hup, hverdict, hdue, List.forall_mem_nil _⟩

/-- Anything else leaves it so, unless it releases the UE. -/
theorem untold_concat (hup : e.isUplink = false) :
    Untold (es ++ [e]) r b ↔ Untold es r b ∧ e.releases r = false := by
  constructor
  · rintro ⟨before, e₀, since, hes, hup₀, hverdict, hdue, hsince⟩
    obtain ⟨-, rfl, -⟩ | ⟨since, rfl, rfl⟩ := concat_eq_append_cons.1 hes
    · rw [hup] at hup₀
      cases hup₀
    · obtain ⟨hsince, hlast⟩ := List.forall_mem_append.1 hsince
      exact ⟨⟨before, e₀, since, rfl, hup₀, hverdict, hdue, hsince⟩,
        (hlast e (List.mem_singleton_self e)).2⟩
  · rintro ⟨⟨before, e₀, since, rfl, hup₀, hverdict, hdue, hsince⟩, hkept⟩
    refine ⟨before, e₀, since ++ [e], by simp, hup₀, hverdict, hdue, ?_⟩
    exact List.forall_mem_append.2 ⟨hsince, by simp [hup, hkept]⟩

/-- An event that leaves no answer awaited does not touch the timetable, unless it is an uplink
trigger or releases the UE. -/
theorem Event.timetable_of_awaited {answers : List AccessGrant} (hup : e.isUplink = false)
    (hkept : e.releases r = false) (hnone : e.awaited r answers = []) :
    answers = [] ∧ ∀ t, e.timetable n r t = t := by
  obtain ⟨before, q, after, said⟩ := e
  cases q with
  -- It releases someone else.
  | releaseUe r' =>
    have hne : r' ≠ r := by simpa [releases] using hkept
    exact ⟨(if_neg hne).symm.trans hnone, fun t => if_neg hne⟩
  -- It answers nobody of this name, and there was no answer before.
  | downlinkTrigger feedback =>
    unfold awaited at hnone
    unfold timetable
    dsimp only at hnone ⊢
    split at hnone
    next hknown =>
      obtain ⟨hanswers, hfilter⟩ := List.append_eq_nil_iff.1 hnone
      refine ⟨hanswers, fun t => ?_⟩
      rw [if_pos hknown, hfilter]
      rfl
    next hknown => exact ⟨hnone, fun t => if_neg hknown⟩
  | uplinkTrigger => cases hup
  | _ => exact ⟨hnone, fun _ => rfl⟩

/-- Of a released UE nothing is in flight. -/
theorem Event.timetable_of_releases (h : e.releases r = true) (t : Timetable) :
    e.timetable n r t = .empty := by
  obtain ⟨before, q, after, said⟩ := e
  cases q with
  | releaseUe r' => exact if_pos (of_decide_eq_true h)
  | _ => cases h

/-- Without an answer that is awaited, the present subframe holds the block that nobody told of. -/
theorem timetable_zero_iff (hnone : awaited es r = []) :
    timetable es r 0 = some b ↔ Untold es r b := by
  induction es using List.reverseRecOn with
  | nil =>
    refine iff_of_false (fun h => by cases h) ?_
    rintro ⟨before, e, since, hes, -⟩
    simp at hes
  | append_singleton es e ih =>
    rw [timetable_concat]
    rw [awaited_concat] at hnone
    by_cases hup : e.isUplink = true
    -- A trigger brings the block that is due into the present, unless it is told what became of it.
    · rw [Event.timetable_zero_of_uplink hup, untold_concat_of_uplink hup]
      split
      next hverdict => simp [hverdict]
      next hverdict => simp [hverdict]
    -- Any other event leaves the block, unless it releases the UE.
    · have hup := Bool.eq_false_iff.2 hup
      rw [untold_concat hup]
      by_cases hreleased : e.releases r = true
      · rw [Event.timetable_of_releases hreleased, hreleased]
        exact iff_of_false (fun h => by cases h) fun h => by cases h.2
      · have hkept := Bool.eq_false_iff.2 hreleased
        obtain ⟨hanswers, hsame⟩ := Event.timetable_of_awaited (n := es.length) hup hkept hnone
        rw [hsame, ih hanswers, hkept, eq_self, and_true]

/-! ## What is left -/

/-- Event `i`, an uplink trigger, grants the UE `r` nothing, and no answer to a random access of the
UE stands for its subframe. -/
structure Ungranted (es : List (Event Record)) (r : Rnti) (i : Nat) (e : Event Record) : Prop where
  /-- It is event `i`. -/
  occurs : es[i]? = some e
  /-- It is an uplink trigger. -/
  isUplink : e.isUplink = true
  /-- No answer to the UE stands. -/
  unanswered : (standing (es.take i)).filter (·.rnti = r) = []
  /-- No grant goes to the UE. -/
  nothing : ∀ d ∈ e.grants, d.rnti ≠ r

/-- A block that event `i` leaves on the process of its subframe, where it grants the UE `r`
nothing. -/
inductive Left (es : List (Event Record)) (r : Rnti) (i : Nat) (e : Event Record) : Transit → Prop
  /-- A failed block is given up for this time, because there is no room for it. -/
  | abandoned {b : Transit} (hfailed : e.verdict? r = some false)
      (hdue : timetable (es.take i) r Timetable.due = some b)
      (hleft : b.retries < maxRetransmissions) (hroom : ¬e.HasRoom b.grant) :
      Left es r i e (b.retried i false)
  /-- Nobody told of the block that was on the process before, and no failed block is moved. -/
  | untold {b : Transit} (huntold : Untold (es.take i) r b)
      (hunmoved : e.verdict? r = some false →
        ∀ b', timetable (es.take i) r Timetable.due = some b' → maxRetransmissions ≤ b'.retries) :
      Left es r i e b

/-- Where no answer stands, none is awaited. -/
theorem Ungranted.awaited_eq_nil (h : Ungranted es r i e) (hrun : Run policy config es s)
    (henabled : config.harqEnabled = true) : awaited (es.take i) r = [] := by
  have hsuffix := (hrun.before_of_getElem? h.occurs).1.awaited_suffix henabled r
  rw [h.unanswered] at hsuffix
  exact List.suffix_nil.1 hsuffix

/-- What an uplink trigger leaves of a UE that it grants nothing. -/
theorem Ungranted.left_iff (h : Ungranted es r i e) (hrun : Run policy config es s)
    (henabled : config.harqEnabled = true) :
    timetable (es.take (i + 1)) r 1 = some b ↔ Left es r i e b := by
  rw [timetable_take_succ h.occurs, Event.timetable_one_of_ungranted h.isUplink h.nothing]
  -- Either a failed block was moved to the present slot, or the slot holds what it held before.
  by_cases hmoved : e.verdict? r = some false ∧ ∃ b₀,
      timetable (es.take i) r Timetable.due = some b₀ ∧ b₀.retries < maxRetransmissions
  · obtain ⟨hfailed, b₀, hdue, hleft⟩ := hmoved
    rw [hfailed, Timetable.judge_zero hdue hleft, Option.some_inj]
    constructor
    · rintro rfl
      refine .abandoned hfailed hdue hleft fun hroom => ?_
      have hname := ((orderly_timetable (es.take i) r).proper Timetable.due b₀ hdue).name
      -- Had there been room, the block would have been granted.
      have hagain := (hrun.again_iff_hasRoom henabled h.occurs hfailed hdue hleft).2 hroom
      exact h.nothing _ hagain hname
    · rintro (⟨-, hdue', -, -⟩ | ⟨-, hunmoved⟩)
      · rw [hdue, Option.some_inj] at hdue'
        rw [hdue']
      · exact absurd hleft (Nat.not_lt_of_le (hunmoved hfailed b₀ hdue))
  · have hsame : (timetable (es.take i) r).judge i (e.verdict? r) false 0 =
        timetable (es.take i) r 0 := by
      rcases (timetable (es.take i) r).judge_cases i (e.verdict? r) false with
        heq | heq | ⟨hfailed, b₀, hdue, hleft, -⟩
      · rw [heq]
      · rw [heq, Timetable.clear_of_ne Timetable.due_ne_zero.symm]
      · exact absurd ⟨hfailed, b₀, hdue, hleft⟩ hmoved
    rw [hsame, timetable_zero_iff (h.awaited_eq_nil hrun henabled)]
    constructor
    · exact fun huntold => .untold huntold fun hfailed b₀ hdue =>
        Nat.le_of_not_lt fun hleft => hmoved ⟨hfailed, b₀, hdue, hleft⟩
    · rintro (⟨hfailed, hdue, hleft, -⟩ | ⟨huntold, -⟩)
      · exact absurd ⟨hfailed, _, hdue, hleft⟩ hmoved
      · exact huntold

/-- A block that is left was granted by earlier events only. -/
theorem Ungranted.sent_of_left (h : Ungranted es r i e) (hrun : Run policy config es s)
    (henabled : config.harqEnabled = true) (hb : Left es r i e b) :
    ∀ n ∈ b.sent, n < i ∧ ∃ e₀, es[n]? = some e₀ ∧ b.GrantedIn e₀ := by
  have hbefore := (hrun.before_of_getElem? h.occurs).1
  -- It was in the timetable before, and event `i` is not noted in it.
  obtain ⟨k, b₀, hb₀, hsent, hgrant⟩ : ∃ k b₀, timetable (es.take i) r k = some b₀ ∧
      b.sent = b₀.sent ∧ b.grant = b₀.grant := by
    cases hb with
    | abandoned _ hdue => exact ⟨_, _, hdue, rfl, rfl⟩
    | untold huntold =>
      exact ⟨_, _, (timetable_zero_iff (h.awaited_eq_nil hrun henabled)).2 huntold, rfl, rfl⟩
  intro n hn
  rw [hsent] at hn
  obtain ⟨e₀, he₀, hgranted⟩ := hbefore.recorded henabled hb₀ n hn
  rw [List.getElem?_take] at he₀
  split at he₀
  next hlt =>
    refine ⟨hlt, e₀, he₀, ?_⟩
    rw [Transit.GrantedIn, hgrant]
    exact hgranted
  next => cases he₀

/-! ## What is reported on -/

/-- If all subframes but the present one are empty, a block comes to be reported on after seven
uplink triggers at the earliest. -/
theorem timetable_append_of_empty {k : Fin uplinkProcesses}
    (hempty : ∀ k : Fin uplinkProcesses, k ≠ 0 → timetable es r k = none)
    (hk : es'.countP (·.isUplink) < k) : timetable (es ++ es') r k = none := by
  induction es' using List.reverseRecOn generalizing k with
  | nil =>
    rw [List.append_nil]
    exact hempty k (Fin.val_ne_zero_iff.1 (Nat.ne_of_gt hk))
  | append_singleton es' e ih =>
    rw [← List.append_assoc, timetable_concat]
    rw [List.countP_append, List.countP_singleton] at hk
    by_cases hup : e.isUplink = true
    · rw [if_pos hup] at hk
      -- The block would have come from the subframe before, which is empty by induction.
      obtain ⟨k₀, hsucc, hval, hdue⟩ := Timetable.exists_before k (by omega)
      rw [hsucc, Event.timetable_of_uplink hup (Fin.val_ne_zero_iff.1 (by omega)) hdue]
      exact ih (by omega)
    · rw [if_neg hup] at hk
      by_cases hreleased : e.releases r = true
      · rw [Event.timetable_of_releases hreleased]
        rfl
      · rw [Event.timetable_of_not_uplink (Bool.eq_false_iff.2 hup)
          (Bool.eq_false_iff.2 hreleased) (Fin.val_ne_zero_iff.1 (by omega))]
        exact ih (by omega)

/-- Event `j` is to be the seventh uplink trigger after event `i`. -/
def Seventh (es : List (Event Record)) (i j : Nat) : Prop :=
  ((es.take j).drop (i + 1)).countP (·.isUplink) + 1 = outcomeDelay

/-- Seven uplink triggers later, the subframe of event `i` is reported on, unless the UE was
released. -/
theorem Seventh.timetable_due_iff (h : Seventh es i j) :
    timetable (es.take j) r Timetable.due = some b ↔
      Due es r i j ∧ timetable (es.take (i + 1)) r 1 = some b := by
  by_cases hkept : ∀ e ∈ (es.take j).drop (i + 1), e.releases r = false
  · have hdue : Due es r i j := ⟨h, hkept⟩
    rw [hdue.timetable_due]
    exact (and_iff_right hdue).symm
  · -- After the release, the UE starts with an empty timetable.
    refine iff_of_false (fun hb => ?_) fun hdue => hkept hdue.1.kept
    simp only [not_forall, Bool.not_eq_false, exists_prop] at hkept
    obtain ⟨x, hx, hreleases⟩ := hkept
    obtain ⟨before, since, hsplit⟩ := List.append_of_mem hx
    have hseventh := h
    rw [Seventh, hsplit, List.countP_append, List.countP_cons] at hseventh
    have hempty : timetable ((es.take j).take (i + 1) ++ before ++ [x]) r = .empty := by
      rw [timetable_concat, Event.timetable_of_releases hreleases]
    rw [← List.take_append_drop (i + 1) (es.take j), hsplit, ← List.append_assoc,
      List.append_cons, timetable_append_of_empty (fun k _ => by rw [hempty]; rfl)] at hb
    · cases hb
    · change _ < outcomeDelay
      omega

/-- What is granted again to a UE is the failed block that is reported on. -/
theorem Run.again_mem_iff (hrun : Run policy config es s) (henabled : config.harqEnabled = true)
    (he : es[n]? = some e) {d : UplinkGrant} (hname : d.rnti = r) (hndi : d.ndi = 0) :
    d ∈ e.grants ↔ e.verdict? r = some false ∧
      ∃ b, timetable (es.take n) r Timetable.due = some b ∧ b.retries < maxRetransmissions ∧
        e.HasRoom b.grant ∧ d = b.again := by
  constructor
  · intro hd
    have hup := SchedulerState.isUplink_of_grants (hrun.before_of_getElem? he).2 hd
    obtain ⟨_, _, _, _, -, hconfig, hsound, htells, heq⟩ := hrun.event_of_uplink henabled he hup
    obtain ⟨-, hfailed, b, hdue, hleft, rfl⟩ :=
      UplinkTrigger.again_of_grant hconfig hsound (htells r) (heq ▸ hd) hname hndi
    rw [← heq] at hfailed
    exact ⟨hfailed, b, hdue, hleft, (hrun.again_iff_hasRoom henabled he hfailed hdue hleft).1 hd,
      rfl⟩
  · rintro ⟨hfailed, b, hdue, hleft, hroom, rfl⟩
    exact (hrun.again_iff_hasRoom henabled he hfailed hdue hleft).2 hroom

/-- Where a UE was granted nothing, a failure reported seven uplink triggers later leads to no
retransmission, but for a block that was left on the process: that block is granted again if there
is room for it now and it was not retried too often. It is an old block, granted before: every event
it remembers lies before the subframe that is reported on. -/
theorem Run.again_of_ungranted (hrun : Run policy config es s)
    (henabled : config.harqEnabled = true) (h : Ungranted es r i e) (hseventh : Seventh es i j)
    (he' : es[j]? = some e') :
    (∀ d : UplinkGrant, d.rnti = r → d.ndi = 0 →
      (d ∈ e'.grants ↔ e'.verdict? r = some false ∧
        (∀ x ∈ (es.take j).drop (i + 1), x.releases r = false) ∧
        ∃ b, Left es r i e b ∧ b.retries < maxRetransmissions ∧ e'.HasRoom b.grant ∧
          d = b.again)) ∧
      ∀ b, Left es r i e b → ∀ n ∈ b.sent, n < i ∧ ∃ e₀, es[n]? = some e₀ ∧ b.GrantedIn e₀ := by
  refine ⟨fun d hname hndi => ?_, fun b hb => h.sent_of_left hrun henabled hb⟩
  rw [hrun.again_mem_iff henabled he' hname hndi]
  simp only [hseventh.timetable_due_iff, h.left_iff hrun henabled]
  constructor
  · rintro ⟨hfailed, b, ⟨hdue, hb⟩, hgranted⟩
    exact ⟨hfailed, hdue.kept, b, hb, hgranted⟩
  · rintro ⟨hfailed, hkept, b, hb, hgranted⟩
    exact ⟨hfailed, b, ⟨⟨hseventh, hkept⟩, hb⟩, hgranted⟩

/-- The first block fails in event 13, when the answer to another UE has taken some of its blocks;
event 20 is told that the block of that subframe failed, where nothing was granted. -/
def abandonedBlock : List Request :=
  firstGrant ++ silentTriggers ++
    [.randomAccess [⟨40, 5, 56⟩], .downlinkTrigger [], failedTrigger] ++
    silentTriggers ++ [failedTrigger]

/-- Nobody tells of the first block in event 11, and event 12 grants nothing; event 19 is told that
the block of that subframe failed. -/
def untoldBlock : List Request :=
  firstGrant ++ List.replicate 14 (.uplinkTrigger ⟨0⟩ []) ++ [failedTrigger]

/-- Whether UE 1 is granted nothing in event `i`, and its first block again in event `j`. -/
def regrants (es : List (Event Throughput)) (i j : Nat) (told : Option Bool) : Bool :=
  es[i]?.any (fun e => e.isUplink && e.verdict? 1 == told && e.grants.all (·.rnti != 1)) &&
  ((standing (es.take i)).filter (·.rnti = 1)).isEmpty &&
  ((es.take j).drop (i + 1)).countP (·.isUplink) + 1 == outcomeDelay &&
  es[j]?.any (fun e => e.verdict? 1 == some false && e.grants == [{ wholeBand with ndi := 0 }])

/-- A run that does so, found by evaluating it. -/
theorem exists_regrant (qs : List Request) (i j : Nat) (told : Option Bool)
    (h : ((SchedulerState.initial .default).replay .tdBet qs).toOption.any
      (regrants ·.1 i j told) = true) :
    ∃ (es : List (Event Throughput)) (s : SchedulerState Throughput) (e e' : Event Throughput),
      Run .tdBet .default es s ∧ Ungranted es 1 i e ∧ e.verdict? 1 = told ∧ Seventh es i j ∧
      es[j]? = some e' ∧ e'.verdict? 1 = some false ∧
      { wholeBand with ndi := 0 } ∈ e'.grants := by
  obtain ⟨es, s, hrun, hcheck⟩ := Run.of_replay .tdBet .default qs (regrants · i j told) h
  simp only [regrants, Bool.and_eq_true, beq_iff_eq, Option.any_eq_true, List.all_eq_true,
    List.isEmpty_iff, bne_iff_ne] at hcheck
  obtain ⟨⟨⟨⟨e, he, ⟨hup, htold⟩, hnothing⟩, hunanswered⟩, hseventh⟩, e', he', hfailed,
    hgrants⟩ := hcheck
  exact ⟨es, s, e, e', hrun, ⟨he, hup, hunanswered, hnothing⟩, htold, hseventh, he', hfailed,
    by simp [hgrants]⟩

/-- A UE was granted nothing for an uplink subframe, and yet a failure reported on that subframe
leads to a retransmission: of a block that was abandoned there, and of one that nobody told of. In
the first run the answer to another UE is in the way of the failed block when its turn comes; in the
second one the trigger that the block is due in brings no outcome at all. -/
theorem retransmitted_out_of_nothing :
    (∃ (es : List (Event Throughput)) (s : SchedulerState Throughput) (e e' : Event Throughput),
      Run .tdBet .default es s ∧ Ungranted es 1 13 e ∧ e.verdict? 1 = some false ∧
      Seventh es 13 20 ∧ es[20]? = some e' ∧ e'.verdict? 1 = some false ∧
      { wholeBand with ndi := 0 } ∈ e'.grants) ∧
    ∃ (es : List (Event Throughput)) (s : SchedulerState Throughput) (e e' : Event Throughput),
      Run .tdBet .default es s ∧ Ungranted es 1 12 e ∧ e.verdict? 1 = none ∧
      Seventh es 12 19 ∧ es[19]? = some e' ∧ e'.verdict? 1 = some false ∧
      { wholeBand with ndi := 0 } ∈ e'.grants :=
  ⟨exists_regrant abandonedBlock 13 20 (some false) (by decide +kernel),
    exists_regrant untoldBlock 12 19 none (by decide +kernel)⟩

/-- The block that is granted again was left on the process. -/
theorem again_of_ungranted_abandonedBlock :
    ∃ (es : List (Event Throughput)) (s : SchedulerState Throughput) (e e' : Event Throughput)
      (b : Transit),
      Run .tdBet .default es s ∧ SchedulerConfig.default.harqEnabled = true ∧
      Ungranted es 1 13 e ∧ Seventh es 13 20 ∧ es[20]? = some e' ∧ Left es 1 13 e b ∧
      b.retries < maxRetransmissions ∧ e'.HasRoom b.grant ∧ { wholeBand with ndi := 0 } = b.again ∧
      ∀ n ∈ b.sent, n < 13 ∧ ∃ e₀, es[n]? = some e₀ ∧ b.GrantedIn e₀ := by
  obtain ⟨es, s, e, e', hrun, hungranted, -, hseventh, he', -, hagain⟩ :=
    exists_regrant abandonedBlock 13 20 (some false) (by decide +kernel)
  obtain ⟨hgrants, hold⟩ := hrun.again_of_ungranted rfl hungranted hseventh he'
  obtain ⟨-, -, b, hb, hleft, hroom, heq⟩ := (hgrants _ rfl rfl).1 hagain
  exact ⟨es, s, e, e', b, hrun, rfl, hungranted, hseventh, he', hb, hleft, hroom, heq, hold b hb⟩

end LteMac
