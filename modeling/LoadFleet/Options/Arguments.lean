import LoadFleet.Options.Values

/-!
# Options of the command line

Every option has a name, and all but three switches take a value. The arguments of a run hold a
value for each option; where nothing is given, it is the standard one.
-/

namespace LoadFleet

inductive OptionId where
  | targetHost
  | loadAgents
  | latencyAgents
  | symmetricAgents
  | agentPort
  | loadBinary
  | latencyBinary
  | loadThreads
  | latencyThreads
  | loadConnections
  | latencyConnections
  | interArrival
  | appProtocol
  | targetProtocol
  | latencyRate
  | loadPattern
  | intervalSize
  | keyCount
  | nicTimestamps
  | maxTries
  | outputFormat
  | config
  | verbose
  | noColor
deriving DecidableEq

namespace OptionId

def all : List OptionId :=
  [.targetHost, .loadAgents, .latencyAgents, .symmetricAgents, .agentPort, .loadBinary,
    .latencyBinary, .loadThreads, .latencyThreads, .loadConnections, .latencyConnections,
    .interArrival, .appProtocol, .targetProtocol, .latencyRate, .loadPattern, .intervalSize,
    .keyCount, .nicTimestamps, .maxTries, .outputFormat, .config, .verbose, .noColor]

/-- The name of an option, without the two hyphens in front. -/
def name : OptionId -> String
  | .targetHost => "target-host"
  | .loadAgents => "load-agents"
  | .latencyAgents => "lt-agents"
  | .symmetricAgents => "sym-agents"
  | .agentPort => "agent-port"
  | .loadBinary => "load-binary"
  | .latencyBinary => "lt-binary"
  | .loadThreads => "load-threads"
  | .latencyThreads => "lt-threads"
  | .loadConnections => "load-conn"
  | .latencyConnections => "lt-conn"
  | .interArrival => "idist"
  | .appProtocol => "app-proto"
  | .targetProtocol => "comm-proto"
  | .latencyRate => "lqps"
  | .loadPattern => "load-pattern"
  | .intervalSize => "ci-size"
  | .keyCount => "key-count"
  | .nicTimestamps => "nic-ts"
  | .maxTries => "max-tries"
  | .outputFormat => "output-format"
  | .config => "config"
  | .verbose => "verbose"
  | .noColor => "no-color"

def isSwitch : OptionId -> Bool
  | .nicTimestamps => true
  | .verbose => true
  | .noColor => true
  | _ => false

def ofName? (name : String) : Option OptionId :=
  all.find? fun o => o.name == name

end OptionId

structure Arguments where
  targetHost : String
  loadAgents : List String
  latencyAgents : List String
  symmetricAgents : List String
  agentPort : UInt16
  loadBinary : Option String
  latencyBinary : Option String
  loadThreads : Positive32
  latencyThreads : Positive32
  loadConnections : Positive32
  latencyConnections : Positive32
  interArrival : String
  appProtocol : String
  targetProtocol : TargetProtocol
  latencyRate : Positive32
  loadPattern : String
  intervalSize : Positive64
  keyCount : UInt32
  nicTimestamps : Bool
  maxTries : Positive32
  outputFormat : OutputFormat
  config : Option String
  verbose : Bool
  noColor : Bool
deriving DecidableEq

def Arguments.standard : Arguments where
  targetHost := "127.0.0.1:8000"
  loadAgents := []
  latencyAgents := []
  symmetricAgents := []
  agentPort := 5001
  loadBinary := none
  latencyBinary := none
  loadThreads := ⟨16, by decide⟩
  latencyThreads := ⟨8, by decide⟩
  loadConnections := ⟨256, by decide⟩
  latencyConnections := ⟨256, by decide⟩
  interArrival := "exp"
  appProtocol := "bmc_fixed:19_fixed:2_1000000_0.998"
  targetProtocol := .tcp
  latencyRate := ⟨16000, by decide⟩
  loadPattern := "step:10000:100000:50000"
  intervalSize := ⟨5, by decide⟩
  keyCount := 100000
  nicTimestamps := false
  maxTries := ⟨20, by decide⟩
  outputFormat := .text
  config := none
  verbose := false
  noColor := false

end LoadFleet
