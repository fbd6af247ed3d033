/-!
# Transmission modes

How the cell uses its antennas towards a UE. The mode fixes how many layers, and so how many
transport blocks, one downlink grant carries.
-/

namespace LteMac

/-- The antenna scheme of a UE. -/
inductive TransmissionMode where
  | singleAntenna
  | transmitDiversity
  | openLoopSpatialMux
  | closedLoopSpatialMux
  | multiUserMimo
  | closedLoopRank1
  | singleAntennaPort5
deriving DecidableEq

namespace TransmissionMode

/-- All modes, in the order of their indices. -/
def all : List TransmissionMode :=
  [singleAntenna, transmitDiversity, openLoopSpatialMux, closedLoopSpatialMux, multiUserMimo,
    closedLoopRank1, singleAntennaPort5]

/-- The index of a mode in configuration and in messages. -/
def index : TransmissionMode → Nat
  | singleAntenna => 0
  | transmitDiversity => 1
  | openLoopSpatialMux => 2
  | closedLoopSpatialMux => 3
  | multiUserMimo => 4
  | closedLoopRank1 => 5
  | singleAntennaPort5 => 6

/-- The mode with a given index. -/
def ofIndex? (i : Nat) : Option TransmissionMode := all[i]?

/-- The name of a mode. -/
def name : TransmissionMode → String
  | singleAntenna => "Siso"
  | transmitDiversity => "TransmitDiversity"
  | openLoopSpatialMux => "OpenLoopSpatialMux"
  | closedLoopSpatialMux => "ClosedLoopSpatialMux"
  | multiUserMimo => "MultiUserMimo"
  | closedLoopRank1 => "ClosedLoopRank1"
  | singleAntennaPort5 => "SingleAntennaPort5"

/-- Layers of a grant in this mode: spatial multiplexing sends two. -/
def layers : TransmissionMode → Nat
  | openLoopSpatialMux | closedLoopSpatialMux | multiUserMimo => 2
  | _ => 1

/-- The mode that suits a reported rank: two usable layers move a UE from transmit diversity to
open-loop multiplexing, a single one moves it back. Other modes stay. -/
def adapt (mode : TransmissionMode) (rank : Nat) : TransmissionMode :=
  match mode with
  | transmitDiversity => if 2 ≤ rank then openLoopSpatialMux else mode
  | openLoopSpatialMux => if rank = 1 then transmitDiversity else mode
  | _ => mode

theorem ofIndex?_index (mode : TransmissionMode) : ofIndex? mode.index = some mode := by
  cases mode <;> rfl

end TransmissionMode

end LteMac
