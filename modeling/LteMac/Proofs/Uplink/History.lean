import LteMac.Proofs.Uplink.Ownership
import LteMac.Proofs.Uplink.Passage
import Mathlib.Data.List.Forall2
import Mathlib.Data.List.Infix

/-!
# Past uplink subframes

A report on data blocks names the subframe they were sent in, so the map of every uplink trigger is
kept until a report refers to it. A new trigger for the same subframe replaces the map, and only the
sixteen newest maps are kept: a map that has once fallen behind does not come back.

Which maps are kept is told by the run alone, in two steps. The triggers whose maps nothing has
replaced or used up are a property of the events since each of them (`mem_unused`). Which of them
are retained is not simply the sixteen newest: when a report uses one up, a trigger which fell
behind earlier does not return to the list. So a trigger is retained if it was among the newest
without a report at all times since (`mem_retained`).

What a kept map says is told by its own trigger and by the releases since (`Recalls`): a block
belongs to whom the trigger gave it, or to whom an answer had reserved it, unless that UE was
released. The history of the scheduler and the list of retained triggers match entry by entry.

* `unused`: the triggers of a run whose maps nothing has replaced or used up since (`mem_unused`);
* `retained`: those of them whose maps are kept (`mem_retained`);
* `Run.recalls`: the maps kept are those of the retained triggers, and say who could send there and
  was not released since.
-/

namespace LteMac

variable {Record : Type} {policy : Policy Record} {config : SchedulerConfig}
  {es : List (Event Record)} {e : Event Record} {s s' : SchedulerState Record} {r : Rnti}

/-! ## Triggers without a report

The triggers of a run whose maps could still be asked for, told without any map: a later trigger of
the same subframe replaces an earlier one, and a report uses one up.
-/

namespace Event

/-- The subframe an event leaves a map of. -/
def mapped? (e : Event Record) : Option Subframe :=
  match e.request with
  | .uplinkTrigger time _ => some time
  | _ => none

/-- The subframe whose data blocks an event reports on. -/
def reported? (e : Event Record) : Option Subframe :=
  match e.request with
  | .sinr time .data _ _ => some time
  | _ => none

/-- The triggers without a report after event `n`, of those before it and its own. -/
def unused (e : Event Record) (n : Nat) (triggers : List (Nat × Subframe)) :
    List (Nat × Subframe) :=
  triggers.filter (fun x => e.mapped? ≠ some x.2 ∧ e.reported? ≠ some x.2) ++
    (e.mapped?.map (n, ·)).toList

variable {n : Nat} {triggers triggers' : List (Nat × Subframe)} {x : Nat × Subframe}

/-- After an event a trigger is without a report if it was and the event does not concern its
subframe, or if it is the event itself. -/
theorem mem_unused : x ∈ e.unused n triggers ↔
    (x ∈ triggers ∧ e.mapped? ≠ some x.2 ∧ e.reported? ≠ some x.2) ∨
      e.mapped? = some x.2 ∧ x.1 = n := by
  obtain ⟨m, t⟩ := x
  simp only [unused, List.mem_append, List.mem_filter, decide_eq_true_iff, Option.mem_toList,
    Option.map_eq_some_iff, Prod.mk.injEq]
  grind

/-- Triggers that are the latest of some others stay so. -/
theorem unused_suffix (h : triggers <:+ triggers') :
    e.unused n triggers <:+ e.unused n triggers' := by
  obtain ⟨older, rfl⟩ := h
  rw [unused, unused, List.filter_append, List.append_assoc]
  exact List.suffix_append _ _

/-- An event that neither leaves a map nor reports on one. -/
theorem unused_eq_self (hmapped : e.mapped? = none) (hreported : e.reported? = none) :
    e.unused n triggers = triggers := by
  rw [unused, hmapped, hreported]
  simp

end Event

/-- The uplink triggers of a run, by number and subframe, whose maps were neither replaced nor
reported on since, the latest last. -/
def unused (es : List (Event Record)) : List (Nat × Subframe) :=
  es.zipIdx.foldl (fun triggers e => e.1.unused e.2 triggers) []

/-- One more event. -/
theorem unused_concat (es : List (Event Record)) (e : Event Record) :
    unused (es ++ [e]) = e.unused es.length (unused es) := by
  simp [unused, List.zipIdx_append]

/-- A trigger without a report is the latest one for its subframe, and nothing reported on the
subframe since. -/
theorem mem_unused {n : Nat} {t : Subframe} : (n, t) ∈ unused es ↔
    ∃ e, es[n]? = some e ∧ e.mapped? = some t ∧
      ∀ e' ∈ es.drop (n + 1), e'.mapped? ≠ some t ∧ e'.reported? ≠ some t := by
  induction es using List.reverseRecOn with
  | nil => simp [unused]
  | append_singleton es e ih =>
    rw [unused_concat, Event.mem_unused, ih]
    -- The trigger is an earlier event, the last one, or none of the run.
    rcases Nat.lt_trichotomy n es.length with hlt | rfl | hlt
    · rw [List.getElem?_append_left hlt, List.drop_append_of_le_length hlt]
      simp only [List.forall_mem_append, List.forall_mem_singleton]
      constructor
      · rintro (⟨⟨e₀, he₀, hmapped, hsince⟩, hlast⟩ | ⟨-, rfl⟩)
        · exact ⟨e₀, he₀, hmapped, hsince, hlast⟩
        · exact absurd hlt (Nat.lt_irrefl _)
      · rintro ⟨e₀, he₀, hmapped, hsince, hlast⟩
        exact .inl ⟨⟨e₀, he₀, hmapped, hsince⟩, hlast⟩
    · rw [List.getElem?_concat_length, List.drop_of_length_le (by simp)]
      simp
    · rw [List.getElem?_eq_none (by omega), List.getElem?_eq_none (by simp; omega)]
      simp [Nat.ne_of_gt hlt]

/-- The triggers of a run are numbered by their events. -/
theorem lt_of_mem_unused {x : Nat × Subframe} (h : x ∈ unused es) : x.1 < es.length := by
  obtain ⟨e, he, -⟩ := mem_unused.1 h
  exact (List.getElem?_eq_some_iff.1 he).1

/-! ## Retained triggers

There is room for so many maps only. A trigger is retained if at all times since it was among the
newest without a report, which is more than being among them now: a map that had to go does not come
back when others are used up.
-/

/-- The newest entries of a list, as many as maps are kept. -/
def newest {α : Type} (xs : List α) : List α := xs.drop (xs.length - historyDepth)

/-- The uplink triggers of a run whose maps are kept, the latest last. -/
def retained (es : List (Event Record)) : List (Nat × Subframe) :=
  es.zipIdx.foldl (fun triggers e => newest (e.1.unused e.2 triggers)) []

/-- One more event, after which the oldest map may go. -/
theorem retained_concat (es : List (Event Record)) (e : Event Record) :
    retained (es ++ [e]) = newest (e.unused es.length (retained es)) := by
  simp [retained, List.zipIdx_append]

section Newest

variable {α : Type} {xs ys : List α} {x : α}

/-- No more maps are kept than there is room for. -/
theorem length_newest (xs : List α) : (newest xs).length ≤ historyDepth := by
  rw [newest, List.length_drop]
  omega

/-- As long as there is room, all of them are. -/
theorem newest_eq_self (h : xs.length ≤ historyDepth) : newest xs = xs := by
  rw [newest, Nat.sub_eq_zero_of_le h, List.drop_zero]

/-- The newest entries of the end of a list are those at its end that are newest in all. -/
theorem mem_newest (h : xs <:+ ys) : x ∈ newest xs ↔ x ∈ xs ∧ x ∈ newest ys := by
  obtain ⟨older, rfl⟩ := h
  by_cases hlong : historyDepth ≤ xs.length
  · -- All the newest entries are at the end.
    have heq : newest (older ++ xs) = newest xs := by
      rw [newest, newest, List.length_append, List.drop_append, List.drop_of_length_le (by omega),
        List.nil_append]
      congr 1
      omega
    rw [heq]
    exact ⟨fun hx => ⟨List.mem_of_mem_drop hx, hx⟩, And.right⟩
  · rw [newest_eq_self (by omega)]
    refine ⟨fun hx => ⟨hx, ?_⟩, And.left⟩
    rw [newest, List.length_append, List.drop_append]
    refine List.mem_append_right _ ?_
    rwa [show older.length + xs.length - historyDepth - older.length = 0 by omega, List.drop_zero]

end Newest

/-- There is room for all that are retained. -/
theorem length_retained (es : List (Event Record)) : (retained es).length ≤ historyDepth := by
  induction es using List.reverseRecOn with
  | nil => exact Nat.zero_le _
  | append_singleton es e =>
    rw [retained_concat]
    exact length_newest _

/-- The triggers that are retained are the latest of those without a report. -/
theorem retained_suffix (es : List (Event Record)) : retained es <:+ unused es := by
  induction es using List.reverseRecOn with
  | nil => exact List.suffix_rfl
  | append_singleton es e ih =>
    rw [retained_concat, unused_concat]
    exact (List.drop_suffix _ _).trans (Event.unused_suffix ih)

/-- A trigger is retained if it was among the newest without a report ever since. -/
theorem mem_retained {x : Nat × Subframe} : x ∈ retained es ↔
    x ∈ unused es ∧ ∀ m, x.1 < m → m ≤ es.length → x ∈ newest (unused (es.take m)) := by
  induction es using List.reverseRecOn with
  | nil => simp [retained, unused]
  | append_singleton es e ih =>
    rw [retained_concat, mem_newest (Event.unused_suffix (retained_suffix es)), ← unused_concat]
    -- The moments so far, and the one after the last event.
    have hsplit : ∀ P : List (Event Record) → Prop, x.1 ≤ es.length →
        ((∀ m, x.1 < m → m ≤ (es ++ [e]).length → P ((es ++ [e]).take m)) ↔
          (∀ m, x.1 < m → m ≤ es.length → P (es.take m)) ∧ P (es ++ [e])) := by
      intro P hx
      rw [List.length_append, List.length_singleton]
      constructor
      · intro h
        refine ⟨fun m hm hle => ?_, ?_⟩
        · have hP := h m hm (Nat.le_succ_of_le hle)
          rwa [List.take_append_of_le_length hle] at hP
        · have hP := h (es.length + 1) (Nat.lt_succ_of_le hx) (Nat.le_refl _)
          rwa [List.take_of_length_le (by simp)] at hP
      · rintro ⟨hbefore, hlast⟩ m hm hle
        rcases Nat.lt_or_eq_of_le hle with hlt | rfl
        · rw [List.take_append_of_le_length (Nat.le_of_lt_succ hlt)]
          exact hbefore m hm (Nat.le_of_lt_succ hlt)
        · rwa [List.take_of_length_le (by simp)]
    constructor
    · rintro ⟨hmem, hnewest⟩
      rw [Event.mem_unused, ih] at hmem
      rcases hmem with ⟨⟨hunused, hever⟩, hsince⟩ | ⟨hmapped, hx⟩
      · refine ⟨?_, (hsplit (fun es => x ∈ newest (unused es))
          (Nat.le_of_lt (lt_of_mem_unused hunused))).2 ⟨hever, hnewest⟩⟩
        rw [unused_concat, Event.mem_unused]
        exact .inl ⟨hunused, hsince⟩
      · refine ⟨?_, (hsplit (fun es => x ∈ newest (unused es)) (Nat.le_of_eq hx)).2
          ⟨fun m hm hle => ?_, hnewest⟩⟩
        · rw [unused_concat, Event.mem_unused]
          exact .inr ⟨hmapped, hx⟩
        · omega
    · rintro ⟨hunused, hever⟩
      have hlt := lt_of_mem_unused hunused
      rw [List.length_append, List.length_singleton] at hlt
      obtain ⟨hbefore, hnewest⟩ :=
        (hsplit (fun es => x ∈ newest (unused es)) (Nat.le_of_lt_succ hlt)).1 hever
      rw [unused_concat, Event.mem_unused] at hunused
      refine ⟨?_, hnewest⟩
      rw [Event.mem_unused, ih]
      exact hunused.imp_left fun ⟨hunused, hsince⟩ => ⟨⟨hunused, hbefore⟩, hsince⟩

/-! ## Maps

What a map that is kept says about its trigger, and what changes it.
-/

/-- The map kept for the trigger `x`: a block belongs to a UE that could send on it and was not
released since. -/
structure Recalls (es : List (Event Record)) (x : Nat × Subframe) (past : Subframe × BlockMap) :
    Prop where
  /-- It is for the subframe of the trigger. -/
  time : past.1 = x.2
  /-- Whoever has a block in it could send on it then, and was not released since. -/
  owner : ∃ e, es[x.1]? = some e ∧ ∀ (r : Rnti) (i : Nat), r ≠ 0 →
    (past.2.owner? i = some r ↔
      e.Gives (standing (es.take x.1)) r i ∧ ∀ e' ∈ es.drop (x.1 + 1), e'.releases r = false)

namespace Recalls

variable {x : Nat × Subframe} {past past' : Subframe × BlockMap}

/-- The map after one more event, which takes away the blocks of whom it releases. -/
theorem concat (h : Recalls es x past) (htime : past'.1 = past.1)
    (howner : ∀ (r : Rnti) (i : Nat), r ≠ 0 →
      (past'.2.owner? i = some r ↔ past.2.owner? i = some r ∧ e.releases r = false)) :
    Recalls (es ++ [e]) x past' where
  time := htime.trans h.time
  owner := by
    obtain ⟨e₀, he₀, hgives⟩ := h.owner
    obtain ⟨hlt, -⟩ := List.getElem?_eq_some_iff.1 he₀
    refine ⟨e₀, by rwa [List.getElem?_append_left hlt], fun r i hr => ?_⟩
    rw [howner r i hr, hgives r i hr, List.take_append_of_le_length (Nat.le_of_lt hlt),
      List.drop_append_of_le_length hlt, and_assoc]
    simp [or_imp, forall_and]

/-- An event that releases nobody. -/
theorem keep (h : Recalls es x past) (hkeep : ∀ r, e.releases r = false) :
    Recalls (es ++ [e]) x past :=
  h.concat rfl fun r _ _ => by simp [hkeep r]

end Recalls

namespace SchedulerState

/-- What a list of steps does not touch of the uplink is left alone by all of them. -/
theorem uplink_foldl {α β : Type} (part : UplinkState → β)
    {f : SchedulerState Record → α → SchedulerState Record}
    (hf : ∀ s a, part (f s a).uplink = part s.uplink) (as : List α) (s : SchedulerState Record) :
    part (as.foldl f s).uplink = part s.uplink := by
  induction as generalizing s with
  | nil => rfl
  | cons a as ih => exact (ih (f s a)).trans (hf s a)

/-- A control element changes records only. -/
theorem uplink_takeControl (s : SchedulerState Record) (control : Rnti × UplinkControl) :
    (s.takeControl control).uplink =
      { s.uplink with ues := (s.takeControl control).uplink.ues } := by
  unfold takeControl
  split <;> rfl

/-- Downlink reports leave the uplink alone. -/
theorem uplink_learned (s : SchedulerState Record) (reports : List CqiReport) :
    (s.learned reports).1.uplink = s.uplink := by
  have hadapt : ∀ out : Outcome Record,
      (reports.foldl adaptMode out).1.uplink = out.1.uplink := by
    induction reports with
    | nil => exact fun _ => rfl
    | cons report rest ih =>
      intro out
      refine (ih (adaptMode out report)).trans ?_
      unfold adaptMode
      dsimp only
      split
      · rfl
      · split <;> rfl
  unfold learned
  dsimp only
  split
  · exact hadapt _
  · rfl

end SchedulerState

/-- Of entries with different keys, at most one is erased by its key. -/
theorem eraseP_eq_filter {α β : Type} [DecidableEq α] (a : α) {xs : List (α × β)}
    (h : (xs.map (·.1)).Nodup) : xs.eraseP (·.1 = a) = xs.filter (·.1 ≠ a) := by
  induction xs with
  | nil => rfl
  | cons x xs ih =>
    obtain ⟨hx, hxs⟩ := List.nodup_cons.1 h
    by_cases heq : x.1 = a
    · have hrest : xs.filter (·.1 ≠ a) = xs := by
        refine List.filter_eq_self.2 fun y hy => decide_eq_true fun hya => hx ?_
        exact List.mem_map.2 ⟨y, hy, hya.trans heq.symm⟩
      rw [List.eraseP_cons_of_pos (by simpa using heq),
        List.filter_cons_of_neg (by simpa using heq), hrest]
    · rw [List.eraseP_cons_of_neg (by simpa using heq),
        List.filter_cons_of_pos (by simpa using heq), ih hxs]

/-! ## All maps of a run

The maps are kept in the order of their triggers, one for each trigger that is retained. Each kind
of event has one lemma that says what it makes of both lists.
-/

namespace Recalls

variable {history : List (Subframe × BlockMap)} {t : Subframe}

/-- Of two lists with the same keys in the same places, the entries without a key remain. -/
theorem filter {triggers : List (Nat × Subframe)}
    (h : List.Forall₂ (Recalls es) triggers history) (t : Subframe) :
    List.Forall₂ (Recalls es) (triggers.filter (·.2 ≠ t)) (history.filter (·.1 ≠ t)) :=
  List.rel_filter (fun x past hx => by simp [hx.time]) h

/-- Most events leave the maps as they are, and release nobody. -/
theorem all_kept (h : List.Forall₂ (Recalls es) (retained es) history)
    (hmapped : e.mapped? = none) (hreported : e.reported? = none)
    (hkeep : ∀ r, e.releases r = false) :
    List.Forall₂ (Recalls (es ++ [e])) (retained (es ++ [e])) history := by
  rw [retained_concat, Event.unused_eq_self hmapped hreported,
    newest_eq_self (length_retained es)]
  exact h.imp fun _ _ hx => hx.keep hkeep

/-- A report on a subframe uses its map up, if there is one. -/
theorem all_reported (h : List.Forall₂ (Recalls es) (retained es) history)
    (hmapped : e.mapped? = none) (hreported : e.reported? = some t)
    (hkeep : ∀ r, e.releases r = false) :
    List.Forall₂ (Recalls (es ++ [e])) (retained (es ++ [e])) (history.filter (·.1 ≠ t)) := by
  have hunused : e.unused es.length (retained es) = (retained es).filter (·.2 ≠ t) := by
    simp [Event.unused, hmapped, hreported, eq_comm]
  rw [retained_concat, hunused, newest_eq_self
    (Nat.le_trans (List.length_filter_le _ _) (length_retained es))]
  exact (filter h t).imp fun _ _ hx => hx.keep hkeep

/-- A trigger replaces the map of its subframe by a new one, the last. Of more than there is room
for the first one goes. -/
theorem all_mapped (h : List.Forall₂ (Recalls es) (retained es) history)
    (hmapped : e.mapped? = some t) (hreported : e.reported? = none)
    (hkeep : ∀ r, e.releases r = false) {map : BlockMap}
    (hnew : Recalls (es ++ [e]) (es.length, t) (t, map)) :
    List.Forall₂ (Recalls (es ++ [e])) (retained (es ++ [e]))
      (UplinkTrigger.remember history t map) := by
  have hunused : e.unused es.length (retained es) =
      (retained es).filter (·.2 ≠ t) ++ [(es.length, t)] := by
    simp [Event.unused, hmapped, hreported, eq_comm]
  have hall : List.Forall₂ (Recalls (es ++ [e])) (e.unused es.length (retained es))
      (history.filter (·.1 ≠ t) ++ [(t, map)]) := by
    rw [hunused]
    exact List.rel_append ((filter h t).imp fun _ _ hx => hx.keep hkeep) (.cons hnew .nil)
  rw [retained_concat, newest, UplinkTrigger.remember, hall.length_eq]
  exact List.forall₂_drop _ hall

/-- A release takes the blocks of the UE out of all maps, and so it does in what they recall. -/
theorem all_released (h : List.Forall₂ (Recalls es) (retained es) history)
    (hrelease : e.request = .releaseUe r) :
    List.Forall₂ (Recalls (es ++ [e])) (retained (es ++ [e]))
      (history.map fun past => (past.1, past.2.release r)) := by
  have hmapped : e.mapped? = none := by rw [Event.mapped?, hrelease]
  have hreported : e.reported? = none := by rw [Event.reported?, hrelease]
  have hreleases : ∀ r', e.releases r' = decide (r = r') := fun r' => by
    rw [Event.releases, hrelease]
  rw [retained_concat, Event.unused_eq_self hmapped hreported,
    newest_eq_self (length_retained es)]
  refine List.forall₂_map_right_iff.2 (h.imp fun x past hx => hx.concat rfl fun r' i hr' => ?_)
  rw [BlockMap.owner_release, Option.map_eq_some_iff, hreleases]
  -- A block has an owner after the release if it had one before who is not released.
  constructor
  · rintro ⟨r₀, hr₀, heq⟩
    split at heq
    · exact absurd heq.symm hr'
    next hne =>
      subst heq
      exact ⟨hr₀, decide_eq_false (Ne.symm hne)⟩
  · rintro ⟨howner, hkept⟩
    exact ⟨r', howner, if_neg (Ne.symm (of_decide_eq_false hkept))⟩

end Recalls

/-- The maps kept after a run are those of the retained triggers, one for each, in the order of the
triggers. UE 0 is left out of the requests, since an owner 0 stands for nobody in a map. -/
theorem Run.recalls (hrun : Run policy config es s) (hsource : config.sinrSource = .data)
    (hnames : ∀ e ∈ es, 0 ∉ e.request.rntis) :
    List.Forall₂ (Recalls es) (retained es) s.uplink.history := by
  induction hrun with
  | start => exact .nil
  | @step es s s' q said hrun hq ih =>
    obtain ⟨hbefore, -⟩ := List.forall_mem_append.1 hnames
    have h := ih hbefore
    cases SchedulerState.accepted_of_step hq with
    | removed => exact Recalls.all_released h rfl
    | @uplink time outcomes grid =>
      -- The new map says who could send in the subframe, and nobody was released since.
      have hnew : Recalls (es ++ [UplinkTrigger.event s grid time outcomes]) (es.length, time)
          (time, (UplinkTrigger.fresh s grid outcomes).map) := by
        refine ⟨rfl, _, List.getElem?_concat_length .., fun r i hr => ?_⟩
        rw [hrun.owner_fresh hbefore grid time outcomes hr, List.take_left,
          List.drop_of_length_le (by simp)]
        simp
      exact Recalls.all_mapped h rfl rfl (fun _ => rfl) hnew
    | @credited time codes rnti past =>
      change List.Forall₂ _ _ (s.uplink.history.eraseP (·.1 = time))
      rw [eraseP_eq_filter time hrun.reachable.consistent.uplink.subframes]
      exact Recalls.all_reported h rfl rfl fun _ => rfl
    | @unattributed time codes rnti _ _ hnone =>
      -- No map is of this subframe, so none is used up.
      have hfilter : s.uplink.history.filter (·.1 ≠ time) = s.uplink.history :=
        List.filter_eq_self.2 (by simpa using List.find?_eq_none.1 hnone)
      rw [← hfilter]
      exact Recalls.all_reported h rfl rfl fun _ => rfl
    | @sinrIgnored time source codes rnti _ hother =>
      have hconfig := hrun.reachable.invariant.config
      cases source with
      | data => exact absurd (hsource.symm.trans (congrArg _ hconfig).symm) hother
      | sounding => exact Recalls.all_kept h rfl rfl fun _ => rfl
    | qualityTaken =>
      rw [SchedulerState.uplink_learned]
      exact Recalls.all_kept h rfl rfl fun _ => rfl
    | @requested rntis =>
      have hhistory := SchedulerState.uplink_foldl (·.history)
        (f := fun (s : SchedulerState Record) r =>
          s.modifyUplinkUe r fun u => { u with requested := true }) (fun _ _ => rfl) rntis s
      rw [hhistory]
      exact Recalls.all_kept h rfl rfl fun _ => rfl
    | controlsTaken =>
      rw [SchedulerState.uplink_foldl (·.history) fun s control => by rw [s.uplink_takeControl]]
      exact Recalls.all_kept h rfl rfl fun _ => rfl
    | _ => exact Recalls.all_kept h rfl rfl fun _ => rfl

end LteMac
