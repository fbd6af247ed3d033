import Mathlib.Data.List.Infix
import Mathlib.Order.MinMax
import LteMac.Proofs.Reuse.Memory
import LteMac.Scheduler.Control

/-!
# The contract of the reuse policies

A cell relies on its reuse policy for three things, whatever the policy has learned by then: a UE
may use no block that is not usable cell-wide, the grid the policy was made for stays the same, so
that one look at it is enough, and each UE has room for as long an uplink grant as the policy
promises. The last one needs that a split grid has a part for either zone
(`ReusePolicy.Splits`).

What a policy learns shows in none of its cell-wide answers: its outline (`ReusePolicy.outline`)
stays as it is.

* `hasRun_longestRun`, `hasRun_count`: the runs that the promised lengths are taken from;
* `ReusePolicy.hasRun_uplinkAllowed`: a policy has the room it promises, for each UE;
* `ReusePolicy.honours_contract`: the contract, whatever the policy learns and hears.
-/

namespace LteMac

/-! ## Runs -/

/-- Some `length` adjacent blocks of a grid of `n` blocks are usable. -/
def HasRun (n length : Nat) (usable : Nat → Bool) : Prop :=
  ∃ start, start + length ≤ n ∧ ∀ i < length, usable (start + i) = true

/-- A shorter run, or one among more blocks. -/
theorem HasRun.mono {n length length' : Nat} {usable usable' : Nat → Bool}
    (h : HasRun n length usable) (hle : length' ≤ length)
    (husable : ∀ i < n, usable i = true → usable' i = true) : HasRun n length' usable' := by
  obtain ⟨start, hstart, hrun⟩ := h
  exact ⟨start, by omega, fun i hi => husable (start + i) (by omega) (hrun i (by omega))⟩

/-- A grid that is usable throughout is one run. -/
theorem hasRun_all {n : Nat} {usable : Nat → Bool} (h : ∀ i < n, usable i = true) :
    HasRun n n usable :=
  ⟨0, by omega, fun i hi => h (0 + i) (by omega)⟩

/-- The run before the list counts as part of it. -/
theorem isInfix_longestRunFrom (l : List Bool) (run : Nat) :
    List.replicate (longestRunFrom run l) true <:+: List.replicate run true ++ l := by
  induction l generalizing run with
  | nil => exact (List.prefix_append _ _).isInfix
  | cons b rest ih =>
    rcases b with _ | _
    · -- Either the run that ends here is the longest one, or a later one is.
      rcases le_total (longestRunFrom 0 rest) run with hle | hle
      · rw [longestRunFrom, Nat.max_eq_left hle]
        exact (List.prefix_append _ _).isInfix
      · rw [longestRunFrom, Nat.max_eq_right hle]
        exact (ih 0).trans ((List.suffix_cons false rest).trans (List.suffix_append _ _)).isInfix
    · have hlonger := ih (run + 1)
      rwa [List.replicate_succ', List.append_assoc] at hlonger

/-- There is a run as long as the longest one. -/
theorem hasRun_longestRun (n : Nat) (usable : Nat → Bool) :
    HasRun n (longestRun (flags n usable)) usable := by
  obtain ⟨start, hstart, hrun⟩ :=
    List.infix_iff_getElem?.1 (isInfix_longestRunFrom (flags n usable) 0)
  rw [List.replicate_zero, List.nil_append, length_flags, List.length_replicate] at hstart
  refine ⟨start, by rw [longestRun, Nat.add_comm]; exact hstart, fun i hi => ?_⟩
  have hflag := hrun i (by rwa [List.length_replicate])
  rw [List.getElem_replicate, List.replicate_zero, List.nil_append, flags, List.getElem?_map,
    Option.map_eq_some_iff] at hflag
  obtain ⟨block, hblock, husable⟩ := hflag
  obtain ⟨hlt, rfl⟩ := List.getElem?_eq_some_iff.1 hblock
  rwa [List.getElem_range, Nat.add_comm] at husable

/-- The run before the list is part of the longest one, or shorter. -/
theorem le_longestRunFrom (l : List Bool) (run : Nat) : run ≤ longestRunFrom run l := by
  induction l generalizing run with
  | nil => exact le_rfl
  | cons b rest ih =>
    rcases b with _ | _
    · exact le_max_left _ _
    · exact (Nat.le_succ run).trans (ih (run + 1))

/-- Where a block is usable, the longest run is not empty. -/
theorem longestRun_pos {l : List Bool} (h : true ∈ l) (run : Nat) : 0 < longestRunFrom run l := by
  induction l generalizing run with
  | nil => cases h
  | cons b rest ih =>
    rcases b with _ | _
    · exact lt_max_of_lt_right (ih (by simpa using h) 0)
    · exact (Nat.succ_pos run).trans_le (le_longestRunFrom rest (run + 1))

/-- The part of a band that lies in the grid. -/
theorem count_flags_contains (n : Nat) (b : Band) :
    (flags n b.contains).count true = min (b.offset + b.width) n - b.offset := by
  induction n with
  | zero => simp [flags]
  | succ n ih =>
    have hlast : flags (n + 1) b.contains = flags n b.contains ++ [b.contains n] := by
      simp [flags, List.range_succ]
    rw [hlast, List.count_append, ih, List.count_singleton]
    rcases hin : b.contains n with _ | _
    · have hout : ¬(b.offset ≤ n ∧ n < b.offset + b.width) := by
        simpa [Band.contains] using hin
      rw [if_neg (by decide)]
      omega
    · have hinside : b.offset ≤ n ∧ n < b.offset + b.width := by
        simpa [Band.contains] using hin
      rw [if_pos (by decide)]
      omega

/-- The part of a band that lies in the grid is a run. -/
theorem hasRun_count (n : Nat) (b : Band) :
    HasRun n ((flags n b.contains).count true) b.contains := by
  rw [count_flags_contains]
  refine ⟨min b.offset n, by omega, fun i hi => ?_⟩
  simp only [Band.contains, Bool.and_eq_true, decide_eq_true_eq]
  omega

/-- What reaches a reuse policy. -/
inductive ReuseOp where
  /-- The downlink qualities, by which the rules with a threshold tell edge from centre. -/
  | downlinkReport (reports : List CqiReport)
  /-- The uplink qualities, which no rule looks at. -/
  | uplinkReport
  /-- A UE is released. -/
  | forget (rnti : Rnti)
  /-- The groups that a neighbour uses at high power. -/
  | hear (cell : UInt16) (high : List Bool)

namespace ReusePolicy

variable {p p' : ReusePolicy} {r : Rnti} {i : Nat}

/-! ## What a policy allows -/

/-- What a UE may use, the cell may use. -/
theorem downlinkOpen_of_allowed (h : p.downlinkAllowed i r = true) : p.downlinkOpen i = true := by
  obtain ⟨rbgs, blocks, rule⟩ := p
  rcases rule with _ | _ | _ | _ | _ <;>
    simp only [downlinkAllowed, downlinkOpen, Bool.and_eq_true, Bool.or_eq_true] at h ⊢
  · exact h.2
  · exact h.2.imp_right And.left

/-- So it is in the uplink. -/
theorem uplinkOpen_of_allowed (h : p.uplinkAllowed i r = true) : p.uplinkOpen i = true := by
  obtain ⟨rbgs, blocks, rule⟩ := p
  rcases rule with _ | _ | _ | _ | _ <;>
    simp only [uplinkAllowed, uplinkOpen, Bool.and_eq_true, Bool.or_eq_true] at h ⊢
  · exact h.2
  · exact h.2.imp_right And.left

/-- In the grid, what is open is flagged. -/
theorem downlinkFlag_of_allowed (hi : i < p.rbgs) (h : p.downlinkAllowed i r = true) :
    flagAt p.downlinkFlags i = true := by
  rw [downlinkFlags, flagAt_flags, decide_eq_true hi, downlinkOpen_of_allowed h, Bool.and_self]

/-- So it is in the uplink. -/
theorem uplinkFlag_of_allowed (hi : i < p.blocks) (h : p.uplinkAllowed i r = true) :
    flagAt p.uplinkFlags i = true := by
  rw [uplinkFlags, flagAt_flags, decide_eq_true hi, uplinkOpen_of_allowed h, Bool.and_self]

/-! ## Room for a grant -/

/-- Where the uplink grid is split in an edge and a centre part, neither is empty. -/
def Splits (p : ReusePolicy) : Prop :=
  match p.rule with
  | .soft _ edge _ =>
    true ∈ flags p.blocks edge.contains ∧ false ∈ flags p.blocks edge.contains
  | _ => True

instance (p : ReusePolicy) : Decidable p.Splits :=
  match p with
  | ⟨_, blocks, .soft _ edge _⟩ => inferInstanceAs (Decidable
      (true ∈ flags blocks edge.contains ∧ false ∈ flags blocks edge.contains))
  | ⟨_, _, .full⟩ | ⟨_, _, .hard ..⟩ | ⟨_, _, .enhanced ..⟩ | ⟨_, _, .distributed ..⟩ =>
    .isTrue trivial

/-- Of two runs that are not empty, the shorter one is no longer than either. -/
theorem shorterRun_le {a b : Nat} (ha : 0 < a) (hb : 0 < b) :
    shorterRun a b ≤ a ∧ shorterRun a b ≤ b := by
  rw [shorterRun, if_neg ha.ne', if_neg hb.ne']
  exact ⟨min_le_left a b, min_le_right a b⟩

/-- Each UE may use as many adjacent blocks as the policy promises, in whatever zone it is. -/
theorem hasRun_uplinkAllowed (h : p.Splits) (r : Rnti) :
    HasRun p.blocks p.contiguousBlocks (p.uplinkAllowed · r) := by
  obtain ⟨rbgs, blocks, rule⟩ := p
  rcases rule with _ | ⟨_, uplink⟩ | ⟨_, edge, zones⟩ | ⟨_, _, primary⟩ | _
  · exact hasRun_all fun _ _ => rfl
  · refine (hasRun_count blocks uplink).mono le_rfl fun i hi hband => ?_
    simp [uplinkAllowed, hi, hband]
  · -- The parts of the two zones are complements, and the promise fits in both.
    have hedge : 0 < longestRun (flags blocks edge.contains) := longestRun_pos h.1 0
    have hcentre : 0 < longestRun (flags blocks fun i => !edge.contains i) :=
      longestRun_pos (by simpa [flags] using h.2) 0
    obtain ⟨hleEdge, hleCentre⟩ := shorterRun_le hedge hcentre
    rcases hzone : zones.zone r with _ | _
    · refine (hasRun_longestRun blocks fun i => !edge.contains i).mono hleCentre
        fun i hi hband => ?_
      rw [Bool.not_eq_true'] at hband
      simp [uplinkAllowed, hi, hzone, hband, show (Zone.centre == Zone.edge) = false from rfl]
    · refine (hasRun_longestRun blocks edge.contains).mono hleEdge fun i hi hband => ?_
      simp [uplinkAllowed, hi, hzone, hband]
  · refine (hasRun_longestRun blocks primary.contains).mono le_rfl fun i hi hband => ?_
    simp [uplinkAllowed, hi, hband]
  · exact hasRun_all fun _ hi => decide_eq_true hi

/-! ## What a policy learns -/

/-- A policy after an operation. An announcement only reaches a policy that listens. -/
def apply (p : ReusePolicy) : ReuseOp → ReusePolicy
  | .downlinkReport reports => p.learnAll reports
  | .uplinkReport => p
  | .forget r => p.forget r
  | .hear cell high => (p.hear? cell high).getD p

/-- A policy after some operations. -/
def after (p : ReusePolicy) (ops : List ReuseOp) : ReusePolicy := ops.foldl apply p

/-- A policy that has neither learned nor heard anything yet. -/
def outline (p : ReusePolicy) : ReusePolicy :=
  match p.rule with
  | .distributed zones _ => { p with rule := .distributed (.empty zones.threshold) ∅ }
  | _ => p.unlearned

/-- What a policy has learned is not in its outline. -/
theorem outline_unlearned (p : ReusePolicy) : p.unlearned.outline = p.outline := by
  obtain ⟨rbgs, blocks, rule⟩ := p
  rcases rule with _ | _ | _ | _ | _ <;> rfl

/-- Nor is what it has heard. -/
theorem outline_hear (p : ReusePolicy) (cell : UInt16) (high : List Bool) :
    ((p.hear? cell high).getD p).outline = p.outline := by
  obtain ⟨rbgs, blocks, rule⟩ := p
  rcases rule with _ | _ | _ | _ | _ <;> rfl

/-- No operation touches the outline of a policy. -/
theorem outline_apply (p : ReusePolicy) (op : ReuseOp) : (p.apply op).outline = p.outline := by
  rcases op with reports | _ | r | ⟨cell, high⟩
  · rw [apply, ← outline_unlearned, unlearned_learnAll, outline_unlearned]
  · rfl
  · rw [apply, ← outline_unlearned, unlearned_forget, outline_unlearned]
  · exact outline_hear p cell high

/-- So a policy that was reported to and talked to has the outline it began with. -/
theorem outline_after (p : ReusePolicy) (ops : List ReuseOp) :
    (p.after ops).outline = p.outline := by
  induction ops generalizing p with
  | nil => rfl
  | cons op rest ih => exact (ih (p.apply op)).trans (outline_apply p op)

/-- The outline says all that is true cell-wide. -/
theorem cellwide_outline (p : ReusePolicy) :
    p.outline.rbgs = p.rbgs ∧ p.outline.blocks = p.blocks ∧
      p.outline.downlinkFlags = p.downlinkFlags ∧ p.outline.uplinkFlags = p.uplinkFlags ∧
      (p.outline.Splits ↔ p.Splits) := by
  obtain ⟨rbgs, blocks, rule⟩ := p
  rcases rule with _ | _ | _ | _ | _ <;> exact ⟨rfl, rfl, rfl, rfl, Iff.rfl⟩

/-- Policies of the same outline agree on all that is true cell-wide. -/
theorem cellwide_congr (h : p.outline = p'.outline) :
    p.rbgs = p'.rbgs ∧ p.blocks = p'.blocks ∧ p.downlinkFlags = p'.downlinkFlags ∧
      p.uplinkFlags = p'.uplinkFlags ∧ (p.Splits ↔ p'.Splits) := by
  obtain ⟨hrbgs, hblocks, hdownlink, huplink, hsplits⟩ := cellwide_outline p
  obtain ⟨hrbgs', hblocks', hdownlink', huplink', hsplits'⟩ := cellwide_outline p'
  rw [h] at hrbgs hblocks hdownlink huplink hsplits
  exact ⟨hrbgs.symm.trans hrbgs', hblocks.symm.trans hblocks', hdownlink.symm.trans hdownlink',
    huplink.symm.trans huplink', hsplits.symm.trans hsplits'⟩

/-! ## The contract -/

/-- What a cell that has installed `p₀` may rely on while the policy is `p`. -/
structure Contract (p₀ p : ReusePolicy) : Prop where
  /-- A group that a UE may use is one that the cell may use. -/
  downlink : ∀ r, ∀ i < p₀.rbgs, p.downlinkAllowed i r = true → flagAt p.downlinkFlags i = true
  /-- So it is with uplink blocks. -/
  uplink : ∀ r, ∀ i < p₀.blocks, p.uplinkAllowed i r = true → flagAt p.uplinkFlags i = true
  /-- The flags are for the same downlink grid. -/
  length_downlink : p.downlinkFlags.length = p₀.downlinkFlags.length
  /-- They are for the same uplink grid. -/
  length_uplink : p.uplinkFlags.length = p₀.uplinkFlags.length
  /-- The check done at installation would end as it did. -/
  fit : ∀ grid, SchedulerState.requireFit p grid = SchedulerState.requireFit p₀ grid
  /-- Each UE may use as many adjacent blocks as are promised. -/
  room : p₀.Splits → ∀ r, HasRun p₀.blocks p.contiguousBlocks (p.uplinkAllowed · r)

/-- Every policy keeps its contract, whatever it learns and hears. What is said cell-wide depends on
the outline only, which no operation touches; what a UE may use does depend on what was learned, but
in whatever zone that puts it, there is room for the promised length. -/
theorem honours_contract (p : ReusePolicy) (ops : List ReuseOp) :
    p.Contract (p.after ops) := by
  obtain ⟨hrbgs, hblocks, hdownlink, huplink, hsplits⟩ := cellwide_congr (outline_after p ops)
  exact {
    downlink := fun r i hi => downlinkFlag_of_allowed (hrbgs ▸ hi)
    uplink := fun r i hi => uplinkFlag_of_allowed (hblocks ▸ hi)
    length_downlink := by rw [hdownlink]
    length_uplink := by rw [huplink]
    fit := fun grid => by rw [SchedulerState.requireFit, hdownlink, huplink]; rfl
    room := fun h r => hblocks ▸ hasRun_uplinkAllowed (hsplits.2 h) r }

/-- A UE that reports a low quality still has the edge part of a split grid. -/
theorem edge_ue_has_room :
    let p := (soft 12 25 ⟨0, 4⟩ ⟨0, 5⟩ 7).after [.downlinkReport [⟨1, 1, .wideband, [3], []⟩]]
    p.contiguousBlocks = 5 ∧ p.uplinkAllowed 5 1 = false ∧ HasRun 25 5 (p.uplinkAllowed · 1) :=
  ⟨by decide, by decide, (honours_contract (soft 12 25 ⟨0, 4⟩ ⟨0, 5⟩ 7)
    [.downlinkReport [⟨1, 1, .wideband, [3], []⟩]]).room (by decide) 1⟩

/-- Where the part of its zone is empty, a UE may have no block at all. -/
example : let p := soft 12 25 ⟨0, 4⟩ ⟨0, 25⟩ 7
    ¬p.Splits ∧ p.contiguousBlocks = 25 ∧ ∀ i < 25, p.uplinkAllowed i 1 = false := by
  decide

end ReusePolicy

end LteMac
