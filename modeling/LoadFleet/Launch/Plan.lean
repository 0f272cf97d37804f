import LoadFleet.Settings.Resolve

/-!
# Which agents are started, and how

An agent is started where a binary is configured for its role; the others are taken to run
already. Symmetric agents run the binary of the throughput agents, with the same threads and
connections.
-/

namespace LoadFleet

structure Launch where
  host : String
  role : Role
  binary : String
  arguments : List String
deriving DecidableEq

namespace Launch

/-- The number of a role on an agent's command line. Symmetric agents take their timestamps from
the network card or by themselves. -/
def agentType (role : Role) (nicTimestamps : Bool) : UInt32 :=
  match role with
  | .throughput => 0
  | .latency => 1
  | .symmetric => if nicTimestamps then 2 else 3

def agentArguments (server : ServerSettings) (role : Role) (nicTimestamps : Bool) : List String :=
  let (threads, connections) :=
    match role with
    | .latency => (server.latencyThreads, server.latencyConnections)
    | _ => (server.loadThreads, server.loadConnections)
  ["-s", server.target, "-t", Text.natural threads.toNat, "-c", Text.natural connections.toNat,
    "-i", server.interArrival, "-p", server.targetProtocol.label, "-r", server.appProtocol,
    "-a", Text.natural (agentType role nicTimestamps).toNat]

end Launch

namespace Settings

def binary? (s : Settings) : Role -> Option String
  | .latency => s.latencyBinary
  | _ => s.loadBinary

def launchPlan (s : Settings) : List Launch :=
  s.roster.entries.filterMap fun (host, role) =>
    (s.binary? role).map fun binary =>
      { host, role, binary, arguments := Launch.agentArguments s.server role s.nicTimestamps }

end Settings
end LoadFleet
