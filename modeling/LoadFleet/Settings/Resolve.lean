import LoadFleet.Agent.Roster
import LoadFleet.Measurement.Pattern
import LoadFleet.Options.Arguments
import LoadFleet.Pattern.Reading

/-!
# Resolved settings

Arguments are resolved before anything is started: there must be agents, each host may carry one
agent only, the load pattern must be well formed, and its agents must be there. The first of these
conditions that fails is reported.
-/

namespace LoadFleet

structure ServerSettings where
  target : String
  loadThreads : UInt32
  latencyThreads : UInt32
  loadConnections : UInt32
  latencyConnections : UInt32
  interArrival : String
  appProtocol : String
  targetProtocol : TargetProtocol
  keyCount : UInt32
deriving DecidableEq

structure Settings where
  server : ServerSettings
  roster : Roster
  agentPort : UInt16
  loadBinary : Option String
  latencyBinary : Option String
  pattern : Pattern
  nicTimestamps : Bool
  measurement : MeasurementSettings
  outputFormat : OutputFormat
deriving DecidableEq

def Arguments.roster (a : Arguments) : Roster where
  throughput := a.loadAgents
  latency := a.latencyAgents
  symmetric := a.symmetricAgents

def Arguments.server (a : Arguments) : ServerSettings where
  target := a.targetHost
  loadThreads := a.loadThreads.value
  latencyThreads := a.latencyThreads.value
  loadConnections := a.loadConnections.value
  latencyConnections := a.latencyConnections.value
  interArrival := a.interArrival
  appProtocol := a.appProtocol
  targetProtocol := a.targetProtocol
  keyCount := a.keyCount

namespace Settings

def resolve (a : Arguments) : Except Failure Settings := do
  if a.roster.isEmpty then
    throw (.validation .noAgents)
  if let some name := a.roster.repeatedHost then
    throw (.validation (.duplicateAgent name))
  let pattern ← (Pattern.read a.loadPattern).mapError .config
  (pattern.ensureAgents a.roster.count).mapError .config
  return {
    server := a.server
    roster := a.roster
    agentPort := a.agentPort
    loadBinary := a.loadBinary
    latencyBinary := a.latencyBinary
    pattern
    nicTimestamps := a.nicTimestamps
    measurement := {
      latencyRate := a.latencyRate.value
      widestMicros := a.intervalSize.value
      maxTries := a.maxTries.value }
    outputFormat := a.outputFormat }

end Settings
end LoadFleet
