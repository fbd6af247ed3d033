import LteMac.Proofs.Radio.Table
import LteMac.Reuse.Policy

/-!
# What a reuse policy remembers

All a reuse policy treats differently about two UEs is what it remembers of their reports
(`ReusePolicy.Memory`): two UEs that it remembers alike get the same blocks. Forgetting a UE leaves
it like one that never reported, and touches no other.

A policy is thereby split in two: the rule with its bands and thresholds, which is the same for
everybody and never changes (`unlearned`), and a memory for each UE. The tables in which the rules
keep their memories differ from rule to rule, and the memory has a field for whatever any of them
may keep. Outside of this module nobody needs to know which rule it is: what is forgotten, learned
and asked is told in terms of the memory.

* `ReusePolicy.Alike`: the policies and UEs that are treated alike, now and by later reports;
* `ReusePolicy.memory_forget`, `memory_learnAll`: what forgetting and reports do to the memory;
* `ReusePolicy.eq_of_memory`: apart from its memory of each UE, a policy is what it was at first.
-/

namespace LteMac.ReusePolicy

/-- What is remembered of a UE. -/
structure Memory where
  /-- The zone it was found to be in. -/
  zone : Option Zone
  /-- The qualities of its groups. -/
  subband : Option (List Nat)
  /-- The quality of the whole band. -/
  wideband : Option Nat

/-- Nothing is remembered. -/
def Memory.blank : Memory := ⟨none, none, none⟩

/-- What a policy remembers of a UE. -/
def memory (p : ReusePolicy) (r : Rnti) : Memory :=
  match p.rule with
  | .full | .hard .. => .blank
  | .soft _ _ m | .distributed m _ => ⟨m.zones[r]?, none, none⟩
  | .enhanced _ _ _ _ _ subband wideband => ⟨none, subband[r]?, wideband[r]?⟩

/-- A policy that has not learned anything yet. -/
def unlearned (p : ReusePolicy) : ReusePolicy :=
  match p.rule with
  | .full | .hard .. => p
  | .soft downlink uplink m => { p with rule := .soft downlink uplink (.empty m.threshold) }
  | .enhanced dp ds up us threshold _ _ =>
    { p with rule := .enhanced dp ds up us threshold ∅ ∅ }
  | .distributed m announced => { p with rule := .distributed (.empty m.threshold) announced }

/-- A policy treats the UE `r` as another one treats the UE `r'`. -/
structure Alike (p : ReusePolicy) (r : Rnti) (p' : ReusePolicy) (r' : Rnti) : Prop where
  /-- The same is remembered of them. -/
  memory : p.memory r = p'.memory r'
  /-- They may use the same groups. -/
  downlink : ∀ rbg, p.downlinkAllowed rbg r = p'.downlinkAllowed rbg r'
  /-- They may use the same uplink blocks. -/
  uplink : ∀ block, p.uplinkAllowed block r = p'.uplinkAllowed block r'
  /-- They shall send equally loud. -/
  power : p.powerCommand r = p'.powerCommand r'

variable {p p' : ReusePolicy} {r r' : Rnti}

/-- What is remembered of a UE is all that counts. -/
theorem alike_of_memory (hrule : p.unlearned = p'.unlearned) (h : p.memory r = p'.memory r') :
    p.Alike r p' r' := by
  obtain ⟨rbgs, blocks, rule⟩ := p
  obtain ⟨rbgs', blocks', rule'⟩ := p'
  cases rule <;> cases rule' <;>
    simp only [unlearned, mk.injEq, ReuseRule.hard.injEq, ReuseRule.soft.injEq,
      ReuseRule.enhanced.injEq, ReuseRule.distributed.injEq, reduceCtorEq, and_false] at hrule
  -- Policies of different rules are not the same without their memory. Of the same rule, all
  -- answers about a UE are computed from what is remembered of that UE, and from what the rule has
  -- besides.
  case full.full => exact ⟨rfl, fun _ => rfl, fun _ => rfl, rfl⟩
  case hard.hard =>
    obtain ⟨rfl, rfl, rfl, rfl⟩ := hrule
    exact ⟨rfl, fun _ => rfl, fun _ => rfl, rfl⟩
  case soft.soft m _ _ m' =>
    obtain ⟨rfl, rfl, rfl, rfl, -⟩ := hrule
    have hzone : m.zone r = m'.zone r' := congrArg (fun x : Memory => x.zone.getD .centre) h
    exact ⟨h,
      fun rbg => congrArg (fun z => decide (rbg < rbgs) && _ == (z == Zone.edge)) hzone,
      fun block => congrArg (fun z => decide (block < blocks) && _ == (z == Zone.edge)) hzone,
      congrArg (fun z => if z = Zone.edge then tpcBoost else tpcNeutral) hzone⟩
  case enhanced.enhanced threshold _ _ _ _ _ _ _ _ _ =>
    obtain ⟨rfl, rfl, rfl, rfl, rfl, rfl, rfl, -⟩ := hrule
    obtain ⟨hsubband, hwideband⟩ := (Memory.mk.inj h).2
    exact ⟨h,
      fun rbg => congrArg (fun cqis : Option (List Nat) => decide (rbg < rbgs) &&
        (_ || _ && (cqis.bind (·[rbg]?)).any (threshold ≤ ·))) hsubband,
      fun block => congrArg (fun cqi : Option Nat => decide (block < blocks) &&
        (_ || _ && cqi.any (threshold ≤ ·))) hwideband, rfl⟩
  case distributed.distributed m announced m' _ =>
    obtain ⟨rfl, rfl, -, rfl⟩ := hrule
    have hzone : m.zone r = m'.zone r' := congrArg (fun x : Memory => x.zone.getD .centre) h
    exact ⟨h,
      fun rbg => congrArg (fun z => decide (rbg < rbgs) &&
        (z == Zone.centre || !isAnnounced announced rbg)) hzone,
      fun _ => rfl, congrArg (fun z => if z = Zone.edge then tpcBoost else tpcNeutral) hzone⟩

/-- Nothing is left of a UE that is forgotten, and all of the others. -/
theorem memory_forget :
    (p.forget r).memory r' = if r' = r then .blank else p.memory r' := by
  obtain ⟨rbgs, blocks, rule⟩ := p
  cases rule <;>
    simp only [memory, forget, ZoneMap.forget, Table.getElem?_erase] <;>
    split <;> rfl

/-- Forgetting a UE changes nothing for the others. -/
theorem alike_forget (hne : r' ≠ r) : (p.forget r).Alike r' p r' := by
  refine alike_of_memory ?_ (by rw [memory_forget, if_neg hne])
  obtain ⟨rbgs, blocks, rule⟩ := p
  cases rule <;> rfl

/-- Forgetting a UE changes nothing cell-wide. -/
theorem flags_forget (p : ReusePolicy) (r : Rnti) :
    (p.forget r).downlinkFlags = p.downlinkFlags ∧ (p.forget r).uplinkFlags = p.uplinkFlags ∧
      (p.forget r).contiguousBlocks = p.contiguousBlocks := by
  obtain ⟨rbgs, blocks, rule⟩ := p
  cases rule <;> exact ⟨rfl, rfl, rfl⟩

/-- Only a report of a UE itself makes a policy remember it. -/
theorem memory_learn {report : CqiReport} (hne : report.rnti ≠ r) :
    (p.learn report).memory r = p.memory r := by
  obtain ⟨rbgs, blocks, rule⟩ := p
  cases rule <;>
    simp only [memory, learn, ZoneMap.learn] <;>
    split <;> (try split) <;> simp [Table.getElem?_insert, hne.symm]

/-- So it is for a list of reports. -/
theorem memory_learnAll {reports : List CqiReport} (hne : ∀ report ∈ reports, report.rnti ≠ r) :
    (p.learnAll reports).memory r = p.memory r := by
  induction reports generalizing p with
  | nil => rfl
  | cons report rest ih =>
    obtain ⟨hreport, hrest⟩ := List.forall_mem_cons.1 hne
    exact (ih hrest).trans (memory_learn hreport)

/-- Forgetting does not change the rule. -/
theorem unlearned_forget (p : ReusePolicy) (r : Rnti) : (p.forget r).unlearned = p.unlearned := by
  obtain ⟨rbgs, blocks, rule⟩ := p
  cases rule <;> rfl

/-- Nor does a report. -/
theorem unlearned_learn (p : ReusePolicy) (report : CqiReport) :
    (p.learn report).unlearned = p.unlearned := by
  obtain ⟨rbgs, blocks, rule⟩ := p
  cases rule with
  | full | hard | enhanced => rfl
  | soft | distributed =>
    cases hhead : report.wideband.head? <;> simp [learn, unlearned, ZoneMap.learn, hhead]

/-- Nor does a list of reports. -/
theorem unlearned_learnAll (p : ReusePolicy) (reports : List CqiReport) :
    (p.learnAll reports).unlearned = p.unlearned := by
  induction reports generalizing p with
  | nil => rfl
  | cons report rest ih => exact (ih (p.learn report)).trans (unlearned_learn p report)

/-- Two policies of one rule, which may have learned different things. -/
inductive Kin : ReusePolicy → ReusePolicy → Prop
  /-- There is nothing to learn. -/
  | full {rbgs blocks : Nat} : Kin ⟨rbgs, blocks, .full⟩ ⟨rbgs, blocks, .full⟩
  /-- There is nothing to learn, and the bands are the same. -/
  | hard {rbgs blocks : Nat} {downlink uplink : Band} :
      Kin ⟨rbgs, blocks, .hard downlink uplink⟩ ⟨rbgs, blocks, .hard downlink uplink⟩
  /-- The zones may differ. -/
  | soft {rbgs blocks threshold : Nat} {downlink uplink : Band} {zones zones' : Table Rnti Zone} :
      Kin ⟨rbgs, blocks, .soft downlink uplink ⟨threshold, zones⟩⟩
        ⟨rbgs, blocks, .soft downlink uplink ⟨threshold, zones'⟩⟩
  /-- The qualities that were reported may differ. -/
  | enhanced {rbgs blocks threshold : Nat} {dp ds up us : Band}
      {subband subband' : Table Rnti (List Nat)} {wideband wideband' : Table Rnti Nat} :
      Kin ⟨rbgs, blocks, .enhanced dp ds up us threshold subband wideband⟩
        ⟨rbgs, blocks, .enhanced dp ds up us threshold subband' wideband'⟩
  /-- The zones may differ, but not what the neighbours announced. -/
  | distributed {rbgs blocks threshold : Nat} {zones zones' : Table Rnti Zone}
      {announced : Table UInt16 (List Bool)} :
      Kin ⟨rbgs, blocks, .distributed ⟨threshold, zones⟩ announced⟩
        ⟨rbgs, blocks, .distributed ⟨threshold, zones'⟩ announced⟩

/-- Policies with the same rule are kin, so they have memories in the same tables. -/
theorem kin_of_unlearned (h : p.unlearned = p'.unlearned) : Kin p p' := by
  obtain ⟨rbgs, blocks, rule⟩ := p
  obtain ⟨rbgs', blocks', rule'⟩ := p'
  cases rule <;> cases rule' <;>
    simp only [unlearned, ZoneMap.empty, mk.injEq, ReuseRule.hard.injEq, ReuseRule.soft.injEq,
      ReuseRule.enhanced.injEq, ReuseRule.distributed.injEq, ZoneMap.mk.injEq, reduceCtorEq,
      and_false] at h
  -- Rules of different kinds differ in what is never learned, so five of the cases are left.
  case full.full =>
    obtain ⟨rfl, rfl, -⟩ := h
    exact .full
  case hard.hard =>
    obtain ⟨rfl, rfl, rfl, rfl⟩ := h
    exact .hard
  case soft.soft m _ _ m' =>
    obtain ⟨threshold, zones⟩ := m
    obtain ⟨threshold', zones'⟩ := m'
    obtain ⟨rfl, rfl, rfl, rfl, rfl, -⟩ := h
    exact .soft
  case enhanced.enhanced =>
    obtain ⟨rfl, rfl, rfl, rfl, rfl, rfl, rfl, -⟩ := h
    exact .enhanced
  case distributed.distributed m _ m' _ =>
    obtain ⟨threshold, zones⟩ := m
    obtain ⟨threshold', zones'⟩ := m'
    obtain ⟨rfl, rfl, ⟨rfl, -⟩, rfl⟩ := h
    exact .distributed

/-- What is remembered after a report follows from what was remembered before it. -/
theorem memory_learn_congr (hrule : p.unlearned = p'.unlearned) (h : p.memory r = p'.memory r)
    (report : CqiReport) : (p.learn report).memory r = (p'.learn report).memory r := by
  by_cases hr : report.rnti = r
  · subst hr
    cases kin_of_unlearned hrule with
    | full | hard => rfl
    | soft | distributed =>
      cases hhead : report.wideband.head? <;>
        simp_all [memory, learn, ZoneMap.learn, ZoneMap.classify]
    | enhanced =>
      cases hhead : report.wideband.head? <;> cases hkind : report.kind <;>
        simp_all [memory, learn]
  · rw [memory_learn hr, memory_learn hr, h]

/-- A policy is what it was before it learned anything, and what it remembers. -/
theorem eq_of_memory (hrule : p.unlearned = p'.unlearned) (h : ∀ r, p.memory r = p'.memory r) :
    p = p' := by
  cases kin_of_unlearned hrule with
  | full | hard => rfl
  | @soft _ _ _ _ _ zones zones' | @distributed _ _ _ zones zones' _ =>
    have hzones : zones = zones' :=
      Std.ExtTreeMap.ext_getElem? fun {r} => congrArg Memory.zone (h r)
    rw [hzones]
  | @enhanced _ _ _ _ _ _ _ subband subband' wideband wideband' =>
    have hsubband : subband = subband' :=
      Std.ExtTreeMap.ext_getElem? fun {r} => congrArg Memory.subband (h r)
    have hwideband : wideband = wideband' :=
      Std.ExtTreeMap.ext_getElem? fun {r} => congrArg Memory.wideband (h r)
    rw [hsubband, hwideband]

end LteMac.ReusePolicy
