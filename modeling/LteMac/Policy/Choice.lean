import LteMac.Policy.EqualThroughput
import LteMac.Policy.QosAware
import LteMac.Policy.ThroughputToAverage

/-!
# The policy of an algorithm

Every algorithm comes with records of its own and with a policy that keeps them.
-/

namespace LteMac.Algorithm

/-- What the policy of an algorithm keeps of a UE. -/
def Record : Algorithm → Type
  | cqa => QosRecord
  | fdBet | tdBet => Throughput
  | tta => Unit

/-- The policy of an algorithm. -/
def policy (config : SchedulerConfig) : (algorithm : Algorithm) → Policy algorithm.Record
  | cqa => .cqa config.metric config.delayGroup
  | fdBet => .fdBet
  | tdBet => .tdBet
  | tta => .tta

theorem name_policy (config : SchedulerConfig) (algorithm : Algorithm) :
    (algorithm.policy config).name = algorithm.name := by
  cases algorithm <;> rfl

end LteMac.Algorithm
