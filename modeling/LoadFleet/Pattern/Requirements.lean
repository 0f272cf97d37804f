import LoadFleet.Agent.Role
import LoadFleet.Failure

/-!
# The agents a pattern needs

A fixed pattern and a correlation sweep drive symmetric agents. The other patterns measure with
latency agents, and a single test with either of the two.
-/

namespace LoadFleet
namespace Pattern

/-- Whether the groups with these counts can run the pattern. -/
def ensureAgents (count : Group -> Nat) : Pattern -> Except ConfigFault Unit
  | .fixed _ => if count .symmetric = 0 then .error .fixedRequiresSymmetric else .ok ()
  | .corr _ _ => if count .symmetric = 0 then .error .corrRequiresSymmetric else .ok ()
  | .step _ _ _ => if count .latency = 0 then .error .asymmetricRequiresLatency else .ok ()
  | .test _ _ =>
      if count .symmetric = 0 ∧ count .latency = 0 then .error .asymmetricRequiresLatency
      else .ok ()

end Pattern
end LoadFleet
