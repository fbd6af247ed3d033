import LteMac.Proofs.Quality.Reports
import LteMac.Proofs.Scheduler.Run
import Mathlib.Tactic.IntervalCases

/-!
# How old a measurement may be

The uplink keeps one report for each UE, with one timer for all blocks of it. The measurement of a
block starts that timer anew, also for the other blocks, whatever their measurements are: so these
stay for as long as the report is kept alive, and are counted on in estimates. A measurement is
older than the threshold only if other blocks of its UE were measured since.

The reports are looked at as the result of a list of operations, of any kind and in any order
(`UplinkQuality.after`). What one operation does to the report of a UE is written down once
(`QualityOp.entry`). From it follow two accounts, each by induction on the list: the timer of a
report counts the refreshes since the last report of its UE, and a value is known of a block exactly
if some operation wrote it, none took it away since, and the timer never ran out in between
(`Written`).

An estimate that is kept counts as a value that was written, by the operation that looked at the
block. So it is covered by the same account.

* `UplinkQuality.entries_apply`: what an operation does to the report of a UE;
* `UplinkQuality.sample?_iff`: which measurement is known of a block;
* `UplinkQuality.uses_iff`: which measurements the SINR of a block depends on, and how old they are;
* `UplinkQuality.used_past_threshold`: a measurement that is too old decides.
-/

namespace LteMac

/-- An operation on the uplink reports. -/
inductive QualityOp where
  /-- The reports have so many places from now on. -/
  | bandwidth (blocks : Nat)
  /-- A UE gets a new report, whole. -/
  | replace (rnti : Rnti) (samples : List Float)
  /-- One block of a UE is measured. Its other samples stay as they are. -/
  | measure (rnti : Rnti) (block : Nat) (value : Float)
  /-- A subframe goes by, which may cost a report its last one. -/
  | refresh
  /-- Asks for the SINR of a block; an estimate is kept. -/
  | look (rnti : Rnti) (block : Nat)
  /-- A UE loses its report. -/
  | erase (rnti : Rnti)

variable {threshold n b b' : Nat} {ops since : List QualityOp} {op : QualityOp} {r : Rnti}
  {v : Float} {q : UplinkQuality}

namespace QualityOp

/-- Whether an operation is a report of a UE. -/
def reports (op : QualityOp) (r : Rnti) : Bool :=
  match op with
  | .replace r' _ | .measure r' _ _ => r' = r
  | _ => false

/-- Whether an operation takes away what was measured of a block before. -/
def overwrites (op : QualityOp) (r : Rnti) (b : Nat) : Bool :=
  match op with
  | .replace r' _ | .erase r' => r' = r
  | .measure r' b' _ => r' = r ∧ b' = b
  | _ => false

/-- Whether an operation ages the reports. -/
def isRefresh : QualityOp → Bool
  | .refresh => true
  | _ => false

/-- Refreshes since the last report of a UE, after one more operation. -/
def idle (op : QualityOp) (r : Rnti) (n : Nat) : Nat :=
  if op.reports r then 0 else if op.isRefresh then n + 1 else n

/-- What becomes of the report of the UE `r`. -/
def entry (op : QualityOp) (q : UplinkQuality) (r : Rnti) (a : Option (Aged (List Float))) :
    Option (Aged (List Float)) :=
  match op with
  | .bandwidth _ => a
  | .replace r' samples =>
    if r = r' then some ⟨UplinkQuality.padded samples q.bandwidth, q.sinr.threshold⟩ else a
  | .measure r' b value =>
    if r = r' then
      let known := (a.map (·.value)).getD (UplinkQuality.padded [] q.bandwidth)
      some ⟨(UplinkQuality.padded known (b + 1)).set b value, q.sinr.threshold⟩
    else a
  | .refresh => a.bind (·.tick)
  | .look r' b =>
    if r = r' then
      a.map fun a => { a with value := a.value.set b (UplinkQuality.blockSinr a.value b) }
    else a
  | .erase r' => if r = r' then none else a

end QualityOp

namespace UplinkQuality

/-! ## Operations -/

/-- What is known of a block. -/
def sample? (q : UplinkQuality) (r : Rnti) (b : Nat) : Option Float := (q.sinr.get? r).bind (·[b]?)

/-- The reports after an operation. -/
def apply (q : UplinkQuality) : QualityOp → UplinkQuality
  | .bandwidth blocks => q.setBandwidth blocks
  | .replace r samples => q.replace r samples
  | .measure r b value => q.setBlock r b value
  | .refresh => q.refresh
  | .look r b => q.settle r b
  | .erase r => q.erase r

/-- The reports after some operations on none. -/
def after (threshold : Nat) (ops : List QualityOp) : UplinkQuality :=
  ops.foldl apply (.empty threshold)

/-- Refreshes since the last report of a UE. -/
def idle (r : Rnti) (ops : List QualityOp) : Nat := ops.foldl (fun n op => op.idle r n) 0

/-- One more operation. -/
theorem after_concat (threshold : Nat) (ops : List QualityOp) (op : QualityOp) :
    after threshold (ops ++ [op]) = (after threshold ops).apply op := by
  rw [after, List.foldl_append]
  rfl

/-- The refreshes since the last report are counted one by one. -/
theorem idle_concat (r : Rnti) (ops : List QualityOp) (op : QualityOp) :
    idle r (ops ++ [op]) = op.idle r (idle r ops) := by
  rw [idle, List.foldl_append]
  rfl

/-- An operation does to the report of a UE what its entry says, and nothing to other reports. -/
theorem entries_apply (q : UplinkQuality) (op : QualityOp) (r : Rnti) :
    (q.apply op).sinr.entries[r]? = op.entry q r q.sinr.entries[r]? := by
  cases op with
  | bandwidth => rfl
  | replace => exact Table.getElem?_insert
  | measure r' b value =>
    refine Table.getElem?_insert.trans ?_
    unfold QualityOp.entry
    dsimp only
    split
    next heq =>
      subst heq
      rfl
    next => rfl
  | refresh => exact entries_refresh
  | look => exact entries_settle
  | erase => exact entries_erase

/-- No operation changes the threshold. -/
theorem threshold_after (threshold : Nat) (ops : List QualityOp) :
    (after threshold ops).sinr.threshold = threshold := by
  induction ops using List.reverseRecOn with
  | nil => rfl
  | append_singleton ops op ih =>
    rw [after_concat]
    cases op <;> exact ih

/-! ## Timers -/

/-- A report starts the timer, and a refresh takes one off. -/
theorem timer_entry {a : Option (Aged (List Float))} {a' : Aged (List Float)}
    (h : op.entry q r a = some a') :
    op.reports r = true ∧ a'.remaining = q.sinr.threshold ∨
      op.reports r = false ∧ ∃ a₀, a = some a₀ ∧
        a₀.remaining = a'.remaining + if op.isRefresh then 1 else 0 := by
  cases op with
  -- A report starts the timer of its UE only, a refresh takes one off all of them, and the other
  -- operations leave the timers alone.
  | bandwidth => exact .inr ⟨rfl, a', h, rfl⟩
  | replace r' samples =>
    unfold QualityOp.entry at h
    dsimp only at h
    split at h
    next heq =>
      obtain rfl := Option.some.inj h
      exact .inl ⟨decide_eq_true heq.symm, rfl⟩
    next hne => exact .inr ⟨decide_eq_false (Ne.symm hne), a', h, rfl⟩
  | measure r' b value =>
    unfold QualityOp.entry at h
    dsimp only at h
    split at h
    next heq =>
      obtain rfl := Option.some.inj h
      exact .inl ⟨decide_eq_true heq.symm, rfl⟩
    next hne => exact .inr ⟨decide_eq_false (Ne.symm hne), a', h, rfl⟩
  | refresh =>
    obtain ⟨a₀, rfl, htick⟩ := Option.bind_eq_some_iff.1 h
    unfold Aged.tick at htick
    split at htick
    · cases htick
    next hpos =>
      obtain rfl := Option.some.inj htick
      exact .inr ⟨rfl, a₀, rfl, (Nat.succ_pred_eq_of_ne_zero hpos).symm⟩
  | look r' b =>
    unfold QualityOp.entry at h
    dsimp only at h
    split at h
    · obtain ⟨a₀, rfl, rfl⟩ := Option.map_eq_some_iff.1 h
      exact .inr ⟨rfl, a₀, rfl, rfl⟩
    · exact .inr ⟨rfl, a', h, rfl⟩
  | erase r' =>
    unfold QualityOp.entry at h
    dsimp only at h
    split at h
    · cases h
    · exact .inr ⟨rfl, a', h, rfl⟩

/-- The timer of a report runs since the last report of the UE. -/
theorem remaining_add_idle {a : Aged (List Float)}
    (ha : (after threshold ops).sinr.entries[r]? = some a) :
    a.remaining + idle r ops = threshold := by
  induction ops using List.reverseRecOn generalizing a with
  | nil => simp [after, empty, AgingTable.empty] at ha
  | append_singleton ops op ih =>
    rw [after_concat, entries_apply] at ha
    rw [idle_concat, QualityOp.idle]
    rcases timer_entry ha with ⟨hreports, htimer⟩ | ⟨hreports, a₀, ha₀, htimer⟩
    · rw [if_pos hreports, htimer, threshold_after, Nat.add_zero]
    · have hsum := ih ha₀
      rw [hreports, if_neg Bool.false_ne_true]
      split at htimer
      next hrefresh =>
        rw [if_pos hrefresh]
        omega
      next hrefresh =>
        rw [if_neg hrefresh]
        omega

/-- What is known of a UE is in a report whose timer did not run out. -/
theorem idle_le_of_sample? (h : (after threshold ops).sample? r b = some v) :
    idle r ops ≤ threshold := by
  obtain ⟨samples, hget, -⟩ := Option.bind_eq_some_iff.1 h
  obtain ⟨a, ha, -⟩ := Option.map_eq_some_iff.1 hget
  have := remaining_add_idle ha
  omega

/-! ## Measurements -/

/-- What is known of a block is in the report of its UE. -/
theorem sample?_eq (q : UplinkQuality) (r : Rnti) (b : Nat) :
    q.sample? r b = q.sinr.entries[r]?.bind (·.value[b]?) := by
  rw [sample?, AgingTable.get?, Option.bind_map]
  rfl

/-- The value for a block that was not measured is no measurement. -/
theorem not_isMeasured_unmeasured : ¬Sinr.IsMeasured Sinr.unmeasured := by
  unfold Sinr.IsMeasured
  decide +kernel

/-- To make a list longer adds no measurement. -/
theorem getElem?_padded {samples : List Float} (hv : Sinr.IsMeasured v) :
    (padded samples n)[b]? = some v ↔ samples[b]? = some v := by
  by_cases hb : b < samples.length
  · rw [padded, List.getElem?_append_left hb]
  · rw [padded, List.getElem?_append_right (Nat.le_of_not_lt hb),
      List.getElem?_eq_none (Nat.le_of_not_lt hb)]
    refine iff_of_false (fun h => ?_) fun h => by cases h
    rw [List.mem_replicate.1 (List.mem_of_getElem? h) |>.2] at hv
    exact not_isMeasured_unmeasured hv

end UplinkQuality

/-- Whether an operation on the reports `q` makes `v` the SINR of a block, as a measurement of it or
as an estimate. -/
def QualityOp.Writes (op : QualityOp) (q : UplinkQuality) (r : Rnti) (b : Nat) (v : Float) : Prop :=
  match op with
  | .replace r' samples => r' = r ∧ samples[b]? = some v
  | .measure r' b' value => r' = r ∧ b' = b ∧ value = v
  | .look r' b' =>
    r' = r ∧ b' = b ∧ (∃ w, q.sample? r b = some w ∧ ¬Sinr.IsMeasured w) ∧ q.sinr? r b = some v
  | _ => False

namespace UplinkQuality

/-- Of a UE without a report nothing was measured. -/
theorem getElem?_getD_padded {a : Option (Aged (List Float))} (hv : Sinr.IsMeasured v) :
    ((a.map (·.value)).getD (padded [] n))[b]? = some v ↔ a.bind (·.value[b]?) = some v := by
  cases a with
  | none => exact (getElem?_padded hv).trans (by simp)
  | some a => exact Iff.rfl

/-- Measuring a block. -/
theorem getElem?_measured {known : List Float} (hv : Sinr.IsMeasured v) (value : Float) :
    ((padded known (b' + 1)).set b' value)[b]? = some v ↔
      b' = b ∧ value = v ∨ known[b]? = some v ∧ b' ≠ b := by
  by_cases hb : b' = b
  · subst hb
    have hlt : b' < (padded known (b' + 1)).length := by
      rw [length_padded]
      omega
    simp [List.getElem?_set_self hlt]
  · simp [List.getElem?_set_ne hb, getElem?_padded hv, hb]

/-- Looking at a block: its SINR is kept, if there is a place for it. -/
theorem getElem?_looked {samples : List Float} (hv : Sinr.IsMeasured v) :
    (samples.set b' (blockSinr samples b'))[b]? = some v ↔
      b' = b ∧ (∃ w, samples[b]? = some w ∧ ¬Sinr.IsMeasured w) ∧ blockSinr samples b = v ∨
        samples[b]? = some v := by
  by_cases hb : b' = b
  · subst hb
    cases hw : samples[b']? with
    | none => simp [List.getElem?_eq_none_iff.1 hw]
    | some w =>
      obtain ⟨hlt, -⟩ := List.getElem?_eq_some_iff.1 hw
      rw [List.getElem?_set_self hlt]
      by_cases hmeasured : Sinr.IsMeasured w
      · have hsame : blockSinr samples b' = w := by
          simp only [blockSinr, hw]
          exact if_pos hmeasured
        simp [hsame, hmeasured]
      · have hne : w ≠ v := fun heq => hmeasured (heq ▸ hv)
        simp [hmeasured, hne]
  · simp [List.getElem?_set_ne hb, hb]

/-- What is known of a block after an operation is written by it, or was known before. -/
theorem sample?_apply (hv : Sinr.IsMeasured v) :
    (q.apply op).sample? r b = some v ↔
      op.Writes q r b v ∨ q.sample? r b = some v ∧ op.overwrites r b = false ∧
        (q.apply op).sinr.entries[r]? ≠ none := by
  rw [sample?_eq, sample?_eq, entries_apply]
  generalize ha : q.sinr.entries[r]? = a
  have hsome : a.bind (·.value[b]?) = some v → a ≠ none := by
    rintro h rfl
    cases h
  -- Each operation writes the block, overwrites it, or does not touch it; a refresh may take the
  -- whole report away.
  cases op with
  | bandwidth => simpa [QualityOp.Writes, QualityOp.overwrites, QualityOp.entry] using hsome
  | replace r' samples =>
    by_cases hr : r = r'
    · simp [QualityOp.Writes, QualityOp.overwrites, QualityOp.entry, hr, getElem?_padded hv]
    · simpa [QualityOp.Writes, QualityOp.overwrites, QualityOp.entry, hr, Ne.symm hr] using hsome
  | measure r' b' value =>
    by_cases hr : r = r'
    · subst hr
      simp [QualityOp.Writes, QualityOp.overwrites, QualityOp.entry, getElem?_measured hv,
        getElem?_getD_padded hv]
    · simpa [QualityOp.Writes, QualityOp.overwrites, QualityOp.entry, hr, Ne.symm hr] using hsome
  | refresh =>
    cases a with
    | none => simp [QualityOp.Writes, QualityOp.entry]
    | some a =>
      by_cases htimer : a.remaining = 0
      · simp [QualityOp.Writes, QualityOp.entry, Aged.tick, htimer]
      · simp [QualityOp.Writes, QualityOp.overwrites, QualityOp.entry, Aged.tick, htimer]
  | look r' b' =>
    by_cases hr : r = r'
    · subst hr
      cases a with
      | none => simp [QualityOp.Writes, QualityOp.entry, sample?_eq, ha]
      | some a =>
        simp [QualityOp.Writes, QualityOp.overwrites, QualityOp.entry, sample?_eq, sinr?,
          AgingTable.get?, ha, getElem?_looked hv]
    · simpa [QualityOp.Writes, QualityOp.overwrites, QualityOp.entry, hr, Ne.symm hr] using hsome
  | erase r' =>
    by_cases hr : r = r'
    · simp [QualityOp.Writes, QualityOp.overwrites, QualityOp.entry, hr]
    · simpa [QualityOp.Writes, QualityOp.overwrites, QualityOp.entry, hr, Ne.symm hr] using hsome

/-- After the operations `before`, the operation `op` made `v` the SINR of a block, and it is still
there after those `since`: none of them took it away, and the report of the UE never went without a
new one for more refreshes than the threshold. -/
structure WrittenBy (threshold : Nat) (before : List QualityOp) (op : QualityOp)
    (since : List QualityOp) (r : Rnti) (b : Nat) (v : Float) : Prop where
  /-- The operation wrote it. -/
  writes : op.Writes (after threshold before) r b v
  /-- No later one wrote anything else. -/
  kept : ∀ op' ∈ since, op'.overwrites r b = false
  /-- At no time since did the report of the UE expire. -/
  alive : ∀ p, p <+: since → idle r (before ++ op :: p) ≤ threshold

/-- Some operation made `v` the SINR of a block, and it is still there. The list of operations is
split where it was written, so that its age is the number of refreshes in the second part. -/
def Written (threshold : Nat) (ops : List QualityOp) (r : Rnti) (b : Nat) (v : Float) : Prop :=
  ∃ before op since, ops = before ++ op :: since ∧ WrittenBy threshold before op since r b v

/-- After one more operation a value is there if the operation wrote it, or if it was there and was
not taken away; and in both cases only if the timer of the UE did not run out. -/
theorem written_concat :
    Written threshold (ops ++ [op]) r b v ↔
      (op.Writes (after threshold ops) r b v ∨
        Written threshold ops r b v ∧ op.overwrites r b = false) ∧
      idle r (ops ++ [op]) ≤ threshold := by
  constructor
  · rintro ⟨before, op₀, since, hops, h⟩
    obtain ⟨rfl, rfl, rfl⟩ | ⟨since, rfl, rfl⟩ := concat_eq_append_cons.1 hops
    -- The value was written by the last operation, or by one before it. In the second case the last
    -- operation is one more of those that kept the value.
    · exact ⟨.inl h.writes, h.alive [] List.prefix_rfl⟩
    · obtain ⟨hkept, hlast⟩ := List.forall_mem_append.1 h.kept
      refine ⟨.inr ⟨⟨before, op₀, since, rfl, h.writes, hkept, fun p hp =>
        h.alive p (hp.trans (List.prefix_append _ _))⟩, hlast op (List.mem_singleton_self op)⟩, ?_⟩
      simpa using h.alive _ List.prefix_rfl
  -- Conversely, nothing came after a last operation that wrote the value, and one that kept it is
  -- put at the end of those that came after.
  · rintro ⟨hwrites | ⟨⟨before, op₀, since, rfl, h⟩, hlast⟩, halive⟩
    · exact ⟨ops, op, [], rfl, hwrites, List.forall_mem_nil _, fun p hp => by
        rwa [List.prefix_nil.1 hp]⟩
    · refine ⟨before, op₀, since ++ [op], by simp, h.writes,
        List.forall_mem_append.2 ⟨h.kept, by simpa using hlast⟩, fun p hp => ?_⟩
      rcases List.prefix_concat_iff.1 hp with rfl | hp
      · simpa using halive
      · exact h.alive p hp

/-- The report of a UE outlives an operation that does not forget it, if its timer does. -/
theorem entries_concat_ne_none (h : (after threshold ops).sinr.entries[r]? ≠ none)
    (hkept : op.overwrites r b = false) (halive : idle r (ops ++ [op]) ≤ threshold) :
    ((after threshold ops).apply op).sinr.entries[r]? ≠ none := by
  obtain ⟨a, ha⟩ := Option.ne_none_iff_exists'.1 h
  have htimer := remaining_add_idle ha
  rw [entries_apply, ha]
  cases op with
  | bandwidth => simp [QualityOp.entry]
  | replace r' samples => by_cases hr : r = r' <;> simp [QualityOp.entry, hr]
  | measure r' b' value => by_cases hr : r = r' <;> simp [QualityOp.entry, hr]
  -- Only here does the timer matter: it has not come to its end, as the UE was not idle for too
  -- long.
  | refresh =>
    rw [idle_concat] at halive
    have hpos : a.remaining ≠ 0 := by
      simp only [QualityOp.idle, QualityOp.reports, QualityOp.isRefresh, Bool.false_eq_true,
        if_false, if_true] at halive
      omega
    simp [QualityOp.entry, Aged.tick, hpos]
  | look r' b' => by_cases hr : r = r' <;> simp [QualityOp.entry, hr]
  -- The report that is erased is not the one in question, which would not be kept.
  | erase r' =>
    have hr : r ≠ r' := Ne.symm (of_decide_eq_false hkept)
    simp [QualityOp.entry, hr]

/-- Which measurement is known of a block. -/
theorem sample?_iff (hv : Sinr.IsMeasured v) :
    (after threshold ops).sample? r b = some v ↔ Written threshold ops r b v := by
  induction ops using List.reverseRecOn with
  | nil =>
    refine iff_of_false (fun h => ?_) ?_
    · simp [after, empty, sample?, AgingTable.get?_empty] at h
    · rintro ⟨before, op, since, hops, -⟩
      simp at hops
  | append_singleton ops op ih =>
    -- What is known and what was written follow the same recurrence, once the timer is taken care
    -- of.
    rw [written_concat, ← ih]
    constructor
    · intro h
      refine ⟨?_, idle_le_of_sample? h⟩
      rw [after_concat, sample?_apply hv] at h
      exact h.imp_right fun ⟨hknown, hkept, _⟩ => ⟨hknown, hkept⟩
    · rintro ⟨hwrites | ⟨hknown, hkept⟩, halive⟩
      · rw [after_concat, sample?_apply hv]
        exact .inl hwrites
      · rw [after_concat, sample?_apply hv]
        refine .inr ⟨hknown, hkept, entries_concat_ne_none (fun hnone => ?_) hkept halive⟩
        rw [sample?_eq, hnone] at hknown
        cases hknown

/-! ## Ages -/

/-- Without a report of the UE, every refresh counts. -/
theorem idle_append (h : ∀ op ∈ since, op.reports r = false) :
    idle r (ops ++ since) = idle r ops + since.countP QualityOp.isRefresh := by
  induction since using List.reverseRecOn with
  | nil => rw [List.append_nil, List.countP_nil, Nat.add_zero]
  | append_singleton since op ih =>
    obtain ⟨hsince, hlast⟩ := List.forall_mem_append.1 h
    rw [← List.append_assoc, idle_concat, ih hsince, QualityOp.idle,
      hlast op (List.mem_singleton_self op), if_neg Bool.false_ne_true, List.countP_append,
      List.countP_singleton]
    split <;> rfl

/-- What was written is older than the threshold only if the UE reported on other blocks since. -/
theorem WrittenBy.age_le {before : List QualityOp}
    (h : WrittenBy threshold before op since r b v)
    (hsilent : ∀ op' ∈ since, op'.reports r = false) :
    since.countP QualityOp.isRefresh ≤ threshold := by
  have halive := h.alive since List.prefix_rfl
  rw [List.append_cons, idle_append hsilent] at halive
  omega

/-- The SINR of block `b` depends on the measurement `v` of block `b'`: it is of the same block, or
block `b` was not measured. -/
def Uses (q : UplinkQuality) (r : Rnti) (b b' : Nat) (v : Float) : Prop :=
  Sinr.IsMeasured v ∧ q.sample? r b' = some v ∧
    (b' = b ∨ ∀ w, Sinr.IsMeasured w → q.sample? r b ≠ some w)

/-- The SINR of a block is its own measurement, or the estimate from those it depends on. -/
theorem uses_of_sinr? {x : Float} (h : q.sinr? r b = some x) :
    q.Uses r b b x ∨ (∀ w, ¬q.Uses r b b w) ∧
      ∃ known, x = estimate known ∧ ∀ v, v ∈ known ↔ ∃ b', q.Uses r b b' v := by
  obtain ⟨samples, hget, rfl⟩ := Option.map_eq_some_iff.1 h
  have hsample : ∀ b', q.sample? r b' = samples[b']? := fun b' => by rw [sample?, hget]; rfl
  by_cases hmeasured : ∃ w, samples[b]? = some w ∧ Sinr.IsMeasured w
  · obtain ⟨w, hw, hmeasured⟩ := hmeasured
    have hsame : blockSinr samples b = w := by
      simp only [blockSinr, hw]
      exact if_pos hmeasured
    exact .inl (hsame ▸ ⟨hmeasured, (hsample b).trans hw, .inl rfl⟩)
  -- The block was not measured, so it is estimated. An estimate leaves out what is no measurement,
  -- so it is the same from the measurements alone.
  · have hnone : ∀ w, Sinr.IsMeasured w → q.sample? r b ≠ some w :=
      fun w hw heq => hmeasured ⟨w, (hsample b).symm.trans heq, hw⟩
    refine .inr ⟨fun w hw => hnone w hw.1 hw.2.1, measured samples, ?_, fun v => ?_⟩
    · have hestimate : blockSinr samples b = estimate samples := by
        unfold blockSinr
        split
        next w hw => exact if_neg fun hwm => hmeasured ⟨w, hw, hwm⟩
        next => rfl
      rw [hestimate, estimate, estimate, measured, measured, List.filter_filter]
      simp only [Bool.and_self]
    · rw [measured, List.mem_filter, List.mem_iff_getElem?]
      constructor
      · rintro ⟨⟨b', hb'⟩, hv⟩
        exact ⟨b', hv, (hsample b').trans hb', .inr hnone⟩
      · rintro ⟨b', hv, hb', -⟩
        exact ⟨⟨b', (hsample b').symm.trans hb'⟩, hv⟩

/-- The SINR of a block is its measurement, or the estimate from the measurements of the others.
They are those that were written and not taken away since, while the UE kept its report alive by
reports on whatever blocks; each of them is as fresh as the threshold says unless the UE reported on
other blocks since. -/
theorem uses_iff (threshold : Nat) (ops : List QualityOp) (r : Rnti) (b : Nat) :
    (∀ x, (after threshold ops).sinr? r b = some x →
      (after threshold ops).Uses r b b x ∨ (∀ w, ¬(after threshold ops).Uses r b b w) ∧
        ∃ known, x = estimate known ∧ ∀ v, v ∈ known ↔ ∃ b', (after threshold ops).Uses r b b' v) ∧
    (∀ b' v, (after threshold ops).Uses r b b' v ↔
      Sinr.IsMeasured v ∧ Written threshold ops r b' v ∧
        (b' = b ∨ ∀ w, Sinr.IsMeasured w → ¬Written threshold ops r b w)) ∧
    ∀ before op since b' v, WrittenBy threshold before op since r b' v →
      (∀ op' ∈ since, op'.reports r = false) → since.countP QualityOp.isRefresh ≤ threshold := by
  refine ⟨fun x => uses_of_sinr?, fun b' v => ?_, fun before op since b' v h => h.age_le⟩
  rw [Uses]
  refine and_congr_right fun hv => ?_
  rw [sample?_iff hv]
  refine and_congr_right fun _ => or_congr_right (forall₂_congr fun w hw => ?_)
  exact not_congr (sample?_iff hw)

/-- The prefixes of a list are what can be taken from it. -/
theorem forall_prefix_of_take {P : List QualityOp → Prop}
    (h : ∀ n < since.length + 1, P (since.take n)) : ∀ p, p <+: since → P p := by
  intro p hp
  rw [List.prefix_iff_eq_take.1 hp]
  exact h p.length (Nat.lt_succ_of_le hp.length_le)

/-- Block 0 is measured, and block 1 after a refresh; then there is another refresh. -/
def measuredInTurn : List QualityOp :=
  [.bandwidth 2, .measure 1 0 10.0, .refresh, .measure 1 1 20.0, .refresh]

/-- With a threshold of one refresh, the first measurement is still there. -/
theorem writtenBy_measuredInTurn :
    WrittenBy 1 [.bandwidth 2] (.measure 1 0 10.0) [.refresh, .measure 1 1 20.0, .refresh] 1 0 10.0
    where
  writes := ⟨rfl, rfl, rfl⟩
  kept := by simp [QualityOp.overwrites]
  alive := forall_prefix_of_take (by decide)

/-- Ten is a measurement. -/
theorem isMeasured_ten : Sinr.IsMeasured 10.0 := by
  unfold Sinr.IsMeasured
  decide +kernel

/-- The SINR of block 0 is a measurement that was made two refreshes ago, where one refresh is all
that a measurement should outlive. In between another block of the UE was measured, which starts the
timer of all its measurements anew. -/
theorem used_past_threshold :
    ¬∀ (threshold : Nat) (ops : List QualityOp) (r : Rnti) (b b' : Nat) (v : Float),
      (after threshold ops).Uses r b b' v →
        ∃ before op since, ops = before ++ op :: since ∧ op.reports r = true ∧
          op.Writes (after threshold before) r b' v ∧
          since.countP QualityOp.isRefresh ≤ threshold := by
  intro hfresh
  have huses : (after 1 measuredInTurn).Uses 1 0 0 10.0 :=
    ⟨isMeasured_ten, (sample?_iff isMeasured_ten).2 ⟨_, _, _, rfl, writtenBy_measuredInTurn⟩,
      .inl rfl⟩
  obtain ⟨before, op, since, hops, hreports, hwrites, hage⟩ := hfresh 1 measuredInTurn 1 0 0 _ huses
  -- The operation that the claim asks for is one of the five, so each of them is looked at in turn.
  have hop : measuredInTurn[before.length]? = some op := by simp [hops]
  have hsince : since = measuredInTurn.drop (before.length + 1) := by simp [hops]
  have hlt : before.length < 5 := (List.getElem?_eq_some_iff.1 hop).1
  generalize before.length = n at hop hsince hlt
  subst hsince
  interval_cases n <;> obtain rfl := Option.some.inj hop
  · cases hreports
  · exact absurd hage (by decide)
  · cases hreports
  · exact absurd hwrites.2.1 (by decide)
  · cases hreports

/-- What the SINR of block 0 depends on there, and the age of the later measurement. -/
theorem uses_iff_measuredInTurn :
    (after 1 measuredInTurn).Uses 1 0 0 10.0 ∧
      (∀ op' ∈ [QualityOp.refresh], op'.reports 1 = false) ∧
      [QualityOp.refresh].countP QualityOp.isRefresh ≤ 1 := by
  obtain ⟨-, huses, hage⟩ := uses_iff 1 measuredInTurn 1 0
  have hlater : WrittenBy 1 [.bandwidth 2, .measure 1 0 10.0, .refresh] (.measure 1 1 20.0)
      [.refresh] 1 1 20.0 :=
    { writes := ⟨rfl, rfl, rfl⟩
      kept := by simp [QualityOp.overwrites]
      alive := forall_prefix_of_take (by decide) }
  exact ⟨(huses 0 10.0).2 ⟨isMeasured_ten, ⟨_, _, _, rfl, writtenBy_measuredInTurn⟩, .inl rfl⟩,
    by decide, hage _ _ _ _ _ hlater (by decide)⟩

end UplinkQuality

end LteMac
