import LteMac.Proofs.Uplink.Timetable
import Mathlib.Data.List.Induction

/-!
# The passage of uplink blocks

How blocks pass through a timetable, whatever the events are. A block is put into the present
subframe once, by the event it originates in, and from then on it moves along with the cycle; only a
failure takes it back to the present subframe, and counts as a retry. So a timetable never holds two
blocks of one origin, and a block that is taken away does not come back.

A block carries the numbers of the events that granted it. The first of them is its origin, and
tells it from all other blocks, though many may have the same grant. That is what makes it possible
to speak of a block over several events: two blocks of one origin are one block at different times
(`follows_append`), and that no block of an origin is left means that this block is gone for good
(`without_append`).

No event of this module comes from a scheduler. It is about timetables alone, and holds of any list
of events; that what the uplink keeps in its buffers is what the timetables say is proved elsewhere.

* `Event.carries_of_mem`: where the blocks of a timetable come from, event by event;
* `orderly_timetable`: the blocks of a timetable are proper ones, each of its own origin;
* `timetable_append`: how far a block has moved after some events.
-/

namespace LteMac

variable {Record : Type} {es : List (Event Record)} {e : Event Record} {r : Rnti} {n : Nat}

namespace Event

/-- Whether an event is an uplink trigger. -/
def isUplink (e : Event Record) : Bool :=
  match e.request with
  | .uplinkTrigger .. => true
  | _ => false

/-- Whether an event releases a UE. -/
def releases (e : Event Record) (r : Rnti) : Bool :=
  match e.request with
  | .releaseUe r' => r' = r
  | _ => false

end Event

/-! ## Blocks -/

namespace Transit

variable {b b' b'' : Transit} {g : UplinkGrant} {granted : Bool}

/-- A block of the UE `r` after `n` events: it was granted at most once more than it was retried,
each time by another event. -/
structure Proper (n : Nat) (r : Rnti) (b : Transit) : Prop where
  /-- It is a block of this UE. -/
  name : b.grant.rnti = r
  /-- It is kept as it was first granted. -/
  isNew : b.grant.ndi = 1
  /-- An event granted it. -/
  originates : b.sent ≠ []
  /-- The events that granted it are in order. -/
  sorted : b.sent.Pairwise (· < ·)
  /-- They are events of the past. -/
  past : ∀ m ∈ b.sent, m < n
  /-- It was granted once, and once more for each retry at most. -/
  length : b.sent.length ≤ b.retries + 1
  /-- It was not retried more often than it may be. -/
  retries : b.retries ≤ maxRetransmissions

/-- The block `b'` is `b`, perhaps granted again since. -/
structure Follows (b b' : Transit) : Prop where
  /-- It is the same grant. -/
  grant : b'.grant = b.grant
  /-- It was granted by the same events, and perhaps by later ones. -/
  sent : b.sent <+: b'.sent

/-- A block follows itself. -/
theorem Follows.refl (b : Transit) : Follows b b := ⟨rfl, List.prefix_rfl⟩

/-- Blocks that follow each other, one after the other. -/
theorem Follows.trans (h : Follows b b') (h' : Follows b' b'') : Follows b b'' :=
  ⟨h'.grant.trans h.grant, h.sent.trans h'.sent⟩

/-- A block keeps its origin. -/
theorem Follows.origin (h : Follows b b') (hb : b.Proper n r) : b'.origin? = b.origin? := by
  obtain ⟨later, hlater⟩ := h.sent
  rw [origin?, origin?, ← hlater, List.head?_append_of_ne_nil _ hb.originates]

/-- A block that was retried follows the one that failed. -/
theorem follows_retried (b : Transit) (n : Nat) (granted : Bool) :
    Follows b (b.retried n granted) := by
  refine ⟨rfl, ?_⟩
  cases granted
  · exact List.prefix_rfl
  · exact List.prefix_append _ _

namespace Proper

/-- A proper block stays one. -/
theorem mono (h : b.Proper n r) : b.Proper (n + 1) r :=
  { h with past := fun m hm => Nat.lt_succ_of_lt (h.past m hm) }

/-- A new block is proper. -/
theorem first (hname : g.rnti = r) (hnew : g.ndi = 1) : (Transit.first n g).Proper (n + 1) r where
  name := hname
  isNew := hnew
  originates := List.cons_ne_nil _ _
  sorted := List.pairwise_singleton _ _
  past m hm := by
    rw [List.mem_singleton.1 hm]
    exact Nat.lt_succ_self n
  length := Nat.le_refl 1
  retries := Nat.zero_le _

/-- A block that may be retried stays proper when it is. -/
theorem retried (h : b.Proper n r) (hleft : b.retries < maxRetransmissions) (granted : Bool) :
    (b.retried n granted).Proper (n + 1) r := by
  have hlength := h.length
  cases granted with
  -- Without a grant, nothing but the number of its retries changes.
  | false =>
    exact
      { h.mono with
        length := Nat.le_succ_of_le hlength
        retries := hleft }
  -- With a grant, the event is the last one that sent it, later than all others.
  | true =>
    exact
      { name := h.name
        isNew := h.isNew
        originates := List.append_ne_nil_of_right_ne_nil _ (List.cons_ne_nil _ _)
        sorted := List.pairwise_append.2 ⟨h.sorted, List.pairwise_singleton _ _,
          fun m hm m' hm' => List.mem_singleton.1 hm' ▸ h.past m hm⟩
        past := List.forall_mem_append.2 ⟨h.mono.past, by simp⟩
        length := by
          change (b.sent ++ [n]).length ≤ b.retries + 1 + 1
          rw [List.length_append, List.length_singleton]
          omega
        retries := hleft }

/-- The origin of a block is in the past. -/
theorem origin_lt (h : b.Proper n r) {m : Nat} (hm : b.origin? = some m) : m < n :=
  h.past m (List.mem_of_mem_head? hm)

end Proper

end Transit

/-! ## Timetables -/

namespace Timetable

variable {t : Timetable} {b b' : Transit} {k : Fin uplinkProcesses} {verdict : Option Bool}
  {granted : Bool}

/-- Only the last of several blocks stays in the present subframe. -/
theorem foldl_place (bs : List Transit) (t : Timetable) :
    bs.foldl .place t = bs.getLast?.elim t t.place := by
  induction bs using List.reverseRecOn with
  | nil => rfl
  | append_singleton bs b ih =>
    rw [List.foldl_append, ih, List.getLast?_concat]
    cases bs.getLast? with
    | none => rfl
    | some b' => exact Function.update_idem ..

/-- A block that is placed is in the present subframe. -/
theorem place_zero : t.place b 0 = some b := Function.update_self ..

/-- The other subframes keep their blocks. -/
theorem place_of_ne (hk : k ≠ 0) : t.place b k = t k := Function.update_of_ne hk ..

/-- So they do if several blocks are placed. -/
theorem foldl_place_of_ne (hk : k ≠ 0) (bs : List Transit) : bs.foldl .place t k = t k := by
  rw [foldl_place]
  cases bs.getLast? with
  | none => rfl
  | some b => exact place_of_ne hk

/-- Only the reported subframe is cleared. -/
theorem clear_of_ne (hk : k ≠ due) : t.clear k = t k := Function.update_of_ne hk ..

/-- It is empty then. -/
theorem clear_due : t.clear due = none := Function.update_self ..

/-- What is left was there, in another subframe. -/
theorem of_clear (h : t.clear k = some b) : k ≠ due ∧ t k = some b := by
  by_cases hk : k = due
  · rw [hk, clear_due] at h
    cases h
  · rw [clear_of_ne hk] at h
    exact ⟨hk, h⟩

/-- With the next subframe every block is one further on. -/
theorem tick_succ (t : Timetable) (k : Fin uplinkProcesses) : t.tick (k + 1) = t k := by
  have hsub : ∀ k : Fin uplinkProcesses, k + 1 - 1 = k := by decide
  rw [tick, hsub]

/-- Every subframe but the present one follows upon one that is not yet reported on. -/
theorem exists_before : ∀ k : Fin uplinkProcesses, 0 < (k : Nat) →
    ∃ k₀ : Fin uplinkProcesses, k = k₀ + 1 ∧ (k : Nat) = k₀ + 1 ∧ k₀ ≠ due := by
  decide

/-- A verdict concerns the reported and the present subframe. -/
theorem judge_of_ne (hk : k ≠ 0) (hdue : k ≠ due) : t.judge n verdict granted k = t k := by
  rcases verdict with _ | _ | _
  · rfl
  · cases ht : t due with
    | none => simp only [judge, ht]
    | some b =>
      simp only [judge, ht]
      split
      · exact clear_of_ne hdue
      · rw [place_of_ne hk, clear_of_ne hdue]
  · exact clear_of_ne hdue

/-- A failed block that is not given up moves to the present subframe. -/
theorem judge_zero (hdue : t due = some b) (hleft : b.retries < maxRetransmissions) :
    t.judge n (some false) granted 0 = some (b.retried n granted) := by
  simp only [judge, hdue, if_neg (Nat.not_le_of_lt hleft)]
  exact place_zero

/-- A failed block that was retried often enough is given up. -/
theorem judge_dropped (hdue : t due = some b) (hlast : maxRetransmissions ≤ b.retries) :
    t.judge n (some false) granted = t.clear := by
  simp only [judge, hdue, if_pos hlast]

/-- What a verdict does to a timetable. -/
theorem judge_cases (t : Timetable) (n : Nat) (verdict : Option Bool) (granted : Bool) :
    t.judge n verdict granted = t ∨ t.judge n verdict granted = t.clear ∨
      verdict = some false ∧ ∃ b, t due = some b ∧ b.retries < maxRetransmissions ∧
        t.judge n verdict granted = t.clear.place (b.retried n granted) := by
  rcases verdict with _ | _ | _
  · exact .inl rfl
  · cases hdue : t due with
    | none => exact .inl (by simp only [judge, hdue])
    | some b =>
      by_cases hlast : maxRetransmissions ≤ b.retries
      · exact .inr (.inl (by simp only [judge, hdue, if_pos hlast]))
      · refine .inr (.inr ⟨rfl, b, rfl, Nat.lt_of_not_le hlast, ?_⟩)
        simp only [judge, hdue, if_neg hlast]
  · exact .inr (.inl rfl)

end Timetable

/-! ## Events -/

/-- Where a block of a UE comes from, in event `n`, before which its timetable was `t`. -/
inductive Event.Carries (e : Event Record) (n : Nat) (r : Rnti) (t : Timetable) : Transit → Prop
  /-- It was there before. -/
  | kept {k : Fin uplinkProcesses} {b : Transit} (hmem : t k = some b) : e.Carries n r t b
  /-- It is a new block that the event grants. -/
  | granted {g : UplinkGrant} (hmem : g ∈ e.grants) (hname : g.rnti = r) (hnew : g.ndi = 1) :
      e.Carries n r t (.first n g)
  /-- It is a first block that an answer to a random access grants. -/
  | answered {a : AccessGrant} (hmem : a ∈ e.answers) (hname : a.rnti = r) :
      e.Carries n r t (.first n (Access.uplinkGrant a))
  /-- It failed, and moves to the present process, whether it was granted again or not. -/
  | retried {b : Transit} (hverdict : e.verdict? r = some false) (hmem : t Timetable.due = some b)
      (hleft : b.retries < maxRetransmissions) :
      e.Carries n r t (b.retried n ((e.grants.filter (·.rnti = r)).any (·.ndi = 0)))

namespace Event

variable {t : Timetable} {k : Fin uplinkProcesses} {b : Transit}

/-- What a timetable holds after a judgement was there before, or is a failed block taken back. -/
theorem carries_of_judge
    (h : t.judge n (e.verdict? r) ((e.grants.filter (·.rnti = r)).any (·.ndi = 0)) k = some b) :
    e.Carries n r t b := by
  rcases t.judge_cases n (e.verdict? r) ((e.grants.filter (·.rnti = r)).any (·.ndi = 0)) with
    heq | heq | ⟨hverdict, b', hdue, hleft, heq⟩
  · exact .kept (heq ▸ h)
  · rw [heq] at h
    exact .kept (Timetable.of_clear h).2
  · rw [heq] at h
    by_cases hk : k = 0
    · rw [hk, Timetable.place_zero] at h
      obtain rfl := Option.some.inj h
      exact .retried hverdict hdue hleft
    · rw [Timetable.place_of_ne hk] at h
      exact .kept (Timetable.of_clear h).2

/-- A block that was put into the present subframe after a judgement, or was there. -/
theorem mem_foldl_place {bs : List Transit} (h : bs.foldl .place t k = some b) :
    b ∈ bs ∨ t k = some b := by
  rw [Timetable.foldl_place] at h
  cases hlast : bs.getLast? with
  | none =>
    rw [hlast] at h
    exact .inr h
  | some b' =>
    rw [hlast] at h
    by_cases hk : k = 0
    · rw [hk, Option.elim_some, Timetable.place_zero] at h
      obtain rfl := Option.some.inj h
      exact .inl (List.mem_of_getLast? hlast)
    · rw [Option.elim_some, Timetable.place_of_ne hk] at h
      exact .inr h

/-- Every block of a timetable comes from somewhere. -/
theorem carries_of_mem (h : e.timetable n r t k = some b) : e.Carries n r t b := by
  unfold timetable at h
  generalize e.request = q at h
  cases q with
  | releaseUe r' =>
    dsimp only at h
    split at h
    · cases h
    · exact .kept h
  -- An answer puts a first block on the present subframe, and all other blocks stay where they
  -- were.
  | downlinkTrigger =>
    dsimp only at h
    split at h
    · rcases mem_foldl_place h with hmem | hmem
      · simp only [List.map_map, List.mem_map, List.mem_filter, decide_eq_true_iff] at hmem
        obtain ⟨a, ⟨ha, hname⟩, rfl⟩ := hmem
        exact .answered ha hname
      · exact .kept hmem
    · exact .kept h
  -- All blocks move, after the failed one has been judged and the new ones were put in place.
  | uplinkTrigger =>
    rcases mem_foldl_place h with hmem | hmem
    · simp only [List.mem_map, List.mem_filter, decide_eq_true_iff] at hmem
      obtain ⟨g, ⟨⟨hg, hname⟩, hnew⟩, rfl⟩ := hmem
      exact .granted hg hname hnew
    · exact carries_of_judge hmem
  | _ => exact .kept h

/-- A block that comes from an event either originates in it, or goes on with a former one. -/
theorem Carries.originates_or_follows (h : e.Carries n r t b) :
    b.origin? = some n ∨ ∃ k b', t k = some b' ∧ Transit.Follows b' b := by
  cases h with
  | kept hmem => exact .inr ⟨_, _, hmem, .refl _⟩
  | granted => exact .inl rfl
  | answered => exact .inl rfl
  | retried _ hmem => exact .inr ⟨_, _, hmem, Transit.follows_retried ..⟩

/-- The blocks of a timetable stay proper. -/
theorem Carries.proper (h : e.Carries n r t b)
    (ht : ∀ (k : Fin uplinkProcesses) b, t k = some b → b.Proper n r) : b.Proper (n + 1) r := by
  cases h with
  | kept hmem => exact (ht _ _ hmem).mono
  | granted _ hname hnew => exact .first hname hnew
  | answered _ hname => exact .first hname rfl
  | retried _ hmem hleft => exact (ht _ _ hmem).retried hleft _

end Event

/-! ## Order

The origins of the blocks in a timetable are all different, and all in the past. An event puts
blocks of a new origin into the present subframe, or moves a block there that it first takes away.
-/

namespace Timetable

variable {t : Timetable} {k : Fin uplinkProcesses} {b : Transit} {o : Option Nat}

/-- No two blocks of a timetable are of one origin. -/
def Apart (t : Timetable) : Prop :=
  ∀ k k' b b', t k = some b → t k' = some b' → b.origin? = b'.origin? → k = k'

/-- No block of a timetable is of the given origin. -/
def Without (o : Option Nat) (t : Timetable) : Prop := ∀ k b, t k = some b → b.origin? ≠ o

/-- Taking a block away brings none back. -/
theorem Without.clear (h : t.Without o) : t.clear.Without o := fun _ _ hb => h _ _ (of_clear hb).2

/-- Nor does placing a block of another origin. -/
theorem Without.place (h : t.Without o) (hb : b.origin? ≠ o) : (t.place b).Without o := by
  intro k b' hb'
  by_cases hk : k = 0
  · rw [hk, place_zero] at hb'
    exact Option.some.inj hb' ▸ hb
  · rw [place_of_ne hk] at hb'
    exact h k b' hb'

/-- Nor does the next subframe. -/
theorem Without.tick (h : t.Without o) : t.tick.Without o := fun k b hb => h (k - 1) b hb

/-- Fewer blocks are still of different origins. -/
theorem Apart.clear (h : t.Apart) : t.clear.Apart := fun _ _ _ _ hb hb' =>
  h _ _ _ _ (of_clear hb).2 (of_clear hb').2

/-- So they are with one more, of an origin that none of them has. -/
theorem Apart.place (h : t.Apart) (hb : t.Without b.origin?) : (t.place b).Apart := by
  intro k k' b₁ b₂ h₁ h₂ heq
  by_cases hk : k = 0 <;> by_cases hk' : k' = 0
  · rw [hk, hk']
  · rw [hk, place_zero] at h₁
    rw [place_of_ne hk'] at h₂
    exact absurd (heq.symm.trans (congrArg _ (Option.some.inj h₁).symm)) (hb k' b₂ h₂)
  · rw [hk', place_zero] at h₂
    rw [place_of_ne hk] at h₁
    exact absurd (heq.trans (congrArg _ (Option.some.inj h₂).symm)) (hb k b₁ h₁)
  · rw [place_of_ne hk] at h₁
    rw [place_of_ne hk'] at h₂
    exact h k k' b₁ b₂ h₁ h₂ heq

/-- No two subframes have the same one before them. -/
theorem sub_one_injective : ∀ k k' : Fin uplinkProcesses, k - 1 = k' - 1 → k = k' := by decide

/-- Blocks that move on together stay apart. -/
theorem Apart.tick (h : t.Apart) : t.tick.Apart := fun k k' b b' hb hb' heq =>
  sub_one_injective k k' (h (k - 1) (k' - 1) b b' hb hb' heq)

/-- Once the reported block is taken away, no block of its origin is left. -/
theorem Apart.without_clear (h : t.Apart) (hdue : t due = some b) : t.clear.Without b.origin? := by
  intro k b' hb' heq
  obtain ⟨hk, hb'⟩ := of_clear hb'
  exact hk (h k due b' b hb' hdue heq)

/-- The blocks of a timetable after `n` events. -/
structure Orderly (n : Nat) (r : Rnti) (t : Timetable) : Prop where
  /-- Each block is proper. -/
  proper : ∀ k b, t k = some b → b.Proper n r
  /-- No block is in two slots. -/
  apart : t.Apart

/-- Nothing originates in the future. -/
theorem Orderly.without (h : t.Orderly n r) : t.Without (some n) := fun k b hb heq =>
  Nat.lt_irrefl n ((h.proper k b hb).origin_lt heq)

/-- A judgement keeps blocks apart, and none of them originates in the event that judges. -/
theorem Orderly.judge (h : t.Orderly n r) (verdict : Option Bool) (granted : Bool) :
    (t.judge n verdict granted).Apart ∧ (t.judge n verdict granted).Without (some n) := by
  rcases t.judge_cases n verdict granted with heq | heq | ⟨-, b, hdue, -, heq⟩
  · rw [heq]
    exact ⟨h.apart, h.without⟩
  · rw [heq]
    exact ⟨h.apart.clear, h.without.clear⟩
  · have horigin : (b.retried n granted).origin? = b.origin? :=
      (Transit.follows_retried b n granted).origin (h.proper due b hdue)
    rw [heq]
    refine ⟨h.apart.clear.place ?_, h.without.clear.place ?_⟩
    · rw [horigin]
      exact h.apart.without_clear hdue
    · rw [horigin]
      exact h.without due b hdue

/-- New blocks in the present subframe. -/
theorem Apart.foldl_first (h : t.Apart) (hnew : t.Without (some n)) (gs : List UplinkGrant) :
    Apart ((gs.map (.first n)).foldl .place t) := by
  rw [foldl_place, List.getLast?_map]
  cases gs.getLast? with
  | none => exact h
  | some g => exact h.place hnew

end Timetable

/-- After an event the blocks of a timetable are still of different origins. -/
theorem Event.apart_timetable (e : Event Record) {t : Timetable} (h : t.Orderly n r) :
    (e.timetable n r t).Apart := by
  unfold timetable
  generalize e.request = q
  cases q with
  | releaseUe r' =>
    dsimp only
    split
    · exact fun _ _ _ _ hb => nomatch hb
    · exact h.apart
  | downlinkTrigger =>
    dsimp only
    split
    · exact h.apart.foldl_first h.without _
    · exact h.apart
  -- The judged block keeps its origin, and the new ones have that of the event, which no block had
  -- before.
  | uplinkTrigger =>
    obtain ⟨hapart, hnew⟩ := h.judge (e.verdict? r)
      ((e.grants.filter (·.rnti = r)).any (·.ndi = 0))
    exact (hapart.foldl_first hnew _).tick
  | _ => exact h.apart

/-- The blocks of a timetable are proper ones, each of its own origin. -/
theorem orderly_timetable (es : List (Event Record)) (r : Rnti) :
    (timetable es r).Orderly es.length r := by
  induction es using List.reverseRecOn with
  | nil =>
    refine ⟨fun _ _ hb => ?_, fun _ _ _ _ hb => ?_⟩
    · cases hb
    · cases hb
  | append_singleton es e ih =>
    rw [timetable_concat, List.length_append, List.length_singleton]
    exact ⟨fun k b hb => (Event.carries_of_mem hb).proper ih.proper, e.apart_timetable ih⟩

/-! ## Later events -/

/-- A block that is gone does not come back. -/
theorem without_append {o : Nat} (ho : o < es.length) (h : (timetable es r).Without (some o))
    (es' : List (Event Record)) : (timetable (es ++ es') r).Without (some o) := by
  induction es' using List.reverseRecOn with
  | nil => rwa [List.append_nil]
  | append_singleton es' e ih =>
    intro k b hb
    rw [← List.append_assoc, timetable_concat] at hb
    rcases (Event.carries_of_mem hb).originates_or_follows with heq | ⟨k', b', hb', hfollows⟩
    · intro hlate
      rw [heq, Option.some.injEq, List.length_append] at hlate
      omega
    · rw [hfollows.origin ((orderly_timetable (es ++ es') r).proper k' b' hb')]
      exact ih k' b' hb'

/-- Blocks of one origin are one block. -/
theorem follows_append {k k' : Fin uplinkProcesses} {b b' : Transit} {es' : List (Event Record)}
    (hb : timetable es r k = some b) (hb' : timetable (es ++ es') r k' = some b')
    (horigin : b'.origin? = b.origin?) : Transit.Follows b b' := by
  have hproper := (orderly_timetable es r).proper k b hb
  induction es' using List.reverseRecOn generalizing k' b' with
  | nil =>
    rw [List.append_nil] at hb'
    obtain rfl := (orderly_timetable es r).apart k k' b b' hb hb' horigin.symm
    obtain rfl : b = b' := Option.some.inj (hb.symm.trans hb')
    exact .refl b
  | append_singleton es' e ih =>
    rw [← List.append_assoc, timetable_concat] at hb'
    rcases (Event.carries_of_mem hb').originates_or_follows with heq | ⟨k₁, b₁, hb₁, hfollows⟩
    · -- The block would originate in the last event, but it is older.
      have hlt := hproper.origin_lt (horigin.symm.trans heq)
      rw [List.length_append] at hlt
      omega
    · have horigin₁ := hfollows.origin ((orderly_timetable (es ++ es') r).proper k₁ b₁ hb₁)
      exact (ih hb₁ (horigin₁.symm.trans horigin)).trans hfollows

namespace Event

variable {t : Timetable} {k : Fin uplinkProcesses}

/-- An uplink trigger moves the blocks that are neither present nor reported on by a subframe. -/
theorem timetable_of_uplink (hup : e.isUplink = true) (hk : k ≠ 0) (hdue : k ≠ Timetable.due) :
    e.timetable n r t (k + 1) = t k := by
  obtain ⟨before, q, after, said⟩ := e
  cases q with
  | uplinkTrigger =>
    unfold timetable
    dsimp only
    rw [Timetable.tick_succ, Timetable.foldl_place_of_ne hk, Timetable.judge_of_ne hk hdue]
  | _ => cases hup

/-- Any other event that does not release the UE leaves all blocks where they are, but for the
present one. -/
theorem timetable_of_not_uplink (hup : e.isUplink = false) (hkept : e.releases r = false)
    (hk : k ≠ 0) : e.timetable n r t k = t k := by
  obtain ⟨before, q, after, said⟩ := e
  cases q with
  | releaseUe r' =>
    have hne : r' ≠ r := by simpa [releases] using hkept
    rw [timetable]
    exact congrFun (if_neg hne) k
  | downlinkTrigger =>
    unfold timetable
    dsimp only
    split
    · exact Timetable.foldl_place_of_ne hk _
    · rfl
  | uplinkTrigger => cases hup
  | _ => rfl

/-- An uplink trigger that takes the reported block away leaves no block of its origin. -/
theorem without_timetable {b : Transit} (hup : e.isUplink = true) (h : t.Orderly n r)
    (hdue : t Timetable.due = some b)
    (hclear : ∀ granted, t.judge n (e.verdict? r) granted = t.clear) :
    (e.timetable n r t).Without b.origin? := by
  have hcleared := h.apart.without_clear hdue
  have hnew : some n ≠ b.origin? := (h.without Timetable.due b hdue).symm
  obtain ⟨before, q, after, said⟩ := e
  cases q with
  | uplinkTrigger =>
    unfold timetable
    dsimp only
    rw [hclear, Timetable.foldl_place, List.getLast?_map]
    refine Timetable.Without.tick ?_
    cases (List.filter _ _).getLast? with
    | none => exact hcleared
    | some g => exact hcleared.place hnew
  | _ => cases hup

end Event

/-- How far a block moves, if its UE is not released: one subframe with each uplink trigger. -/
theorem timetable_append {k k' : Fin uplinkProcesses} {es' : List (Event Record)}
    (hkept : ∀ e ∈ es', e.releases r = false) (hk : k ≠ 0)
    (hk' : (k' : Nat) = k + es'.countP (·.isUplink)) :
    timetable (es ++ es') r k' = timetable es r k := by
  induction es' using List.reverseRecOn generalizing k' with
  | nil =>
    obtain rfl : k' = k := Fin.ext hk'
    rw [List.append_nil]
  | append_singleton es' e ih =>
    obtain ⟨hes', he⟩ := List.forall_mem_append.1 hkept
    have hpos : 0 < (k : Nat) := Nat.pos_of_ne_zero fun h => hk (Fin.ext h)
    rw [List.countP_append, List.countP_singleton] at hk'
    rw [← List.append_assoc, timetable_concat]
    by_cases hup : e.isUplink = true
    · -- The block came from the subframe before.
      rw [if_pos hup] at hk'
      obtain ⟨k₀, hsucc, hval, hdue⟩ := Timetable.exists_before k' (by omega)
      rw [hsucc, Event.timetable_of_uplink hup (Fin.val_ne_zero_iff.1 (by omega)) hdue]
      exact ih hes' (by omega)
    · rw [if_neg hup] at hk'
      rw [Event.timetable_of_not_uplink (Bool.eq_false_iff.2 hup)
        (he e (List.mem_singleton_self e))]
      · exact ih hes' hk'
      · intro hzero
        rw [hzero, Fin.val_zero] at hk'
        omega

end LteMac
