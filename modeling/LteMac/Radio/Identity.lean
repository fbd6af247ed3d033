import Std.Data.ExtTreeMap

/-!
# Identities

The names by which a cell addresses its users. A UE is known by its RNTI, one of its radio
bearers by a logical channel identity, and a flow is a bearer of a UE. Everything the cell keeps
about them sits in a `Table`, a finite map that lists its entries in ascending order of their
keys, so that every list the cell writes has one order.

* `FlowId.compare_eq_iff`: the order of the flows separates different flows, so flows may be
  keys of a table too.
-/

namespace LteMac

/-- A finite map whose entries are listed in ascending order of their keys. -/
abbrev Table (κ α : Type) [Ord κ] := Std.ExtTreeMap κ α compare

/-- The identity of a UE within its cell. Zero names nobody. -/
abbrev Rnti := UInt16

/-- The identity of a logical channel of a UE: 0 is the common control channel. -/
abbrev Lcid := UInt8

/-- The reserved identity that all idle UEs listen to for paging. -/
def pagingRnti : Rnti := 0xFFFE

/-- A logical channel of a UE. -/
structure FlowId where
  rnti : Rnti
  lcid : Lcid
deriving DecidableEq

namespace FlowId

/-- Flows are ordered by UE, then by channel, so that the flows of a UE are adjacent. -/
instance : Ord FlowId := ⟨compareLex (compareOn rnti) (compareOn lcid)⟩

theorem compare_eq_iff (a b : FlowId) : compare a b = .eq ↔ a = b := by
  obtain ⟨r, l⟩ := a
  obtain ⟨r', l'⟩ := b
  change (compare r r').then (compare l l') = .eq ↔ _
  rw [Ordering.then_eq_eq, Std.compare_eq_iff_eq, Std.compare_eq_iff_eq, FlowId.mk.injEq]

/-- The flows in ascending order. -/
def sort (flows : List FlowId) : List FlowId :=
  flows.mergeSort fun a b => (compare a b).isLE

end FlowId

end LteMac
