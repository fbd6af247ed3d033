import LteMac.Main
import LteMac.Proofs.Scheduler.Effect
import LteMac.Proofs.Downlink.Tables
import LteMac.Proofs.Downlink.Access
import LteMac.Proofs.Downlink.Handout
import LteMac.Proofs.Downlink.Lineage
import LteMac.Proofs.Downlink.Release
import LteMac.Proofs.Downlink.Spectrum
import LteMac.Proofs.Harq.Uplink
import LteMac.Proofs.Uplink.Spectrum
import LteMac.Proofs.Scheduler.Consistency
import LteMac.Proofs.Reuse.Memory
import LteMac.Proofs.Scheduler.Strangers
import LteMac.Proofs.Scheduler.Removal
import LteMac.Proofs.Scheduler.InPlace
import LteMac.Proofs.Uplink.Timetable
import LteMac.Proofs.Uplink.Verdicts
import LteMac.Proofs.Uplink.Passage
import LteMac.Proofs.Uplink.Synchronous
import LteMac.Proofs.Uplink.Permission
import LteMac.Proofs.Uplink.Attribution
import LteMac.Proofs.Uplink.Present
import LteMac.Proofs.Policy.Sharing
import LteMac.Proofs.Downlink.Conservation
import LteMac.Proofs.Downlink.Proposal
import LteMac.Proofs.Scheduler.Service
import LteMac.Proofs.Scheduler.Expiry
import LteMac.Proofs.Scheduler.Directions
import LteMac.Proofs.Scheduler.Idle
import LteMac.Proofs.Scheduler.Commuting
import LteMac.Proofs.Scheduler.Modes
import LteMac.Proofs.Scenario.Accepted
import LteMac.Proofs.Simulation.Turns
import LteMac.Proofs.Simulation.Completion
import LteMac.Proofs.Downlink.Awaiting
import LteMac.Proofs.Simulation.Feedback
import LteMac.Proofs.Simulation.Timing
import LteMac.Proofs.Scheduler.Oblivious
import LteMac.Proofs.Downlink.Tenure
import LteMac.Proofs.Uplink.Leftover
import LteMac.Proofs.Scheduler.Rotation
import LteMac.Proofs.Uplink.Ungranted
import LteMac.Proofs.Quality.Freshness
import LteMac.Proofs.Checked.Step
import LteMac.Proofs.Uplink.Guesses
import LteMac.Proofs.Uplink.Missing
import LteMac.Proofs.Scheduler.Fairness
import LteMac.Proofs.Downlink.Answered
import LteMac.Proofs.Downlink.Unanswered
import LteMac.Proofs.Downlink.Priority
import LteMac.Proofs.Harq.Refinement
import LteMac.Proofs.Quality.History
import LteMac.Proofs.Quality.Timers
import LteMac.Proofs.Reuse.Contract
import LteMac.Proofs.Downlink.Payload
import LteMac.Proofs.Downlink.Elements
import LteMac.Proofs.Downlink.Paging
import LteMac.Proofs.Policy.Seniority
import LteMac.Proofs.Scheduler.Throughput
import LteMac.Proofs.Policy.Target
import LteMac.Proofs.Radio.Wire
import LteMac.Proofs.Scenario.Validity
import LteMac.Proofs.Scheduler.FlatTables
