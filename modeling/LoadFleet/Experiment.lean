import LoadFleet.Link.Fleet
import LoadFleet.Machine.Basic
import LoadFleet.Outcome.Listing
import LoadFleet.Outcome.Records

/-!
# Experiments

An experiment connects to every agent of the roster and carries out its load pattern over the
connections. The machine it runs on is a parameter: nothing here knows whether agents, files and
programs are real.
-/

namespace LoadFleet

namespace Settings

def experiment [Monad m] (machine : Machine m κ) (s : Settings) : m (Except Failure Outcome) := do
  match ← Fleet.connect machine.dial s.agentPort s.roster.entries with
  | (.error failure, _) => return .error failure
  | (.ok (), fleet) =>
      let procedure := s.pattern.procedure fleet.count s.measurement
      let (result, _) ← procedure.perform (Fleet.answer machine.medium) machine.pause fleet
      return result

/-- Starts the agents that are to be started, in the name of the local user. -/
def deploy [Monad m] (machine : Machine m κ) (s : Settings) :
    m (Except Failure (List DeployedAgent)) := do
  if s.launchPlan.isEmpty then
    return .ok []
  match Launch.user (← machine.environment "USER") (← machine.environment "LOGNAME") with
  | .error failure => return .error failure
  | .ok user =>
      Launch.deployPlan
        (fun launch =>
          Launch.deploy machine.toShell user launch.host launch.binary launch.arguments)
        machine.pause s.launchPlan

def run [Monad m] (machine : Machine m κ) (s : Settings) : m (Except Failure Outcome) := do
  match ← s.deploy machine with
  | .error failure => return .error failure
  | .ok _ => s.experiment machine

end Settings

def Outcome.text (o : Outcome) (writer : Json.Writer) : OutputFormat -> String
  | .text => Listing.ofOutcome o
  | .json => o.records writer

end LoadFleet
