import LteMac.Radio.Identity

/-!
# Reports that age

A report is only worth something while it is fresh. An `AgingTable` keeps the latest report of
each UE together with the number of refreshes it still outlives; a refresh drops the reports
whose time is up and brings the others one step closer to it. So a report made with threshold
`T` is there for exactly `T` refreshes and gone after one more.

* `AgingTable.get?_report`, `get?_erase`: what writing and forgetting do to the reports.
-/

namespace LteMac

/-- A report and how many refreshes it still outlives. -/
structure Aged (α : Type) where
  /-- What was reported. -/
  value : α
  /-- How many refreshes it still outlives. -/
  remaining : Nat
deriving DecidableEq

/-- A report after one more refresh, if it outlives it. -/
def Aged.tick {α : Type} (a : Aged α) : Option (Aged α) :=
  if a.remaining = 0 then none else some { a with remaining := a.remaining - 1 }

/-- The latest report of each UE. -/
structure AgingTable (α : Type) where
  /-- Refreshes that a new report outlives. -/
  threshold : Nat
  /-- The reports, with their timers. -/
  entries : Table Rnti (Aged α)

namespace AgingTable

variable {α : Type}

/-- No report. -/
def empty (threshold : Nat) : AgingTable α := ⟨threshold, ∅⟩

/-- The latest report of a UE, if it is still there. -/
def get? (t : AgingTable α) (rnti : Rnti) : Option α := t.entries[rnti]?.map (·.value)

/-- Stores a fresh report in place of an older one. -/
def report (t : AgingTable α) (rnti : Rnti) (value : α) : AgingTable α :=
  { t with entries := t.entries.insert rnti ⟨value, t.threshold⟩ }

/-- Changes a stored report without making it any fresher. -/
def revise (t : AgingTable α) (rnti : Rnti) (f : α → α) : AgingTable α :=
  { t with entries := t.entries.modify rnti fun a => { a with value := f a.value } }

/-- Forgets a UE. -/
def erase (t : AgingTable α) (rnti : Rnti) : AgingTable α :=
  { t with entries := t.entries.erase rnti }

/-- The UEs whose reports the next refresh drops, ascending. -/
def expiring (t : AgingTable α) : List Rnti :=
  (t.entries.filter fun _ a => a.remaining == 0).keys

/-- One refresh. -/
def refresh (t : AgingTable α) : AgingTable α :=
  { t with entries := t.entries.filterMap fun _ a => a.tick }

/-- The number of UEs with a report. -/
def size (t : AgingTable α) : Nat := t.entries.size

/-- Whether a UE has a report. -/
def contains (t : AgingTable α) (rnti : Rnti) : Bool := t.entries.contains rnti

theorem get?_empty (n : Nat) (r : Rnti) : (empty n : AgingTable α).get? r = none := by
  simp [empty, get?]

theorem get?_report (t : AgingTable α) (r r' : Rnti) (v : α) :
    (t.report r v).get? r' = if r = r' then some v else t.get? r' := by
  simp only [report, get?]
  grind

theorem get?_erase (t : AgingTable α) (r r' : Rnti) :
    (t.erase r).get? r' = if r = r' then none else t.get? r' := by
  simp only [erase, get?]
  grind

end AgingTable

end LteMac
