import LoadFleet.Settings.Datum

/-!
# Configuration files

A configuration file gives values for options, each of which may be left out. Fields with other
names are passed over, and no option may be given twice, also not under its other name. In JSON,
null stands for a value that is left out, and a list of all values stands for the record of them.
-/

namespace LoadFleet

structure ConfigFile where
  targetHost : Option String
  loadAgents : Option (List String)
  latencyAgents : Option (List String)
  symmetricAgents : Option (List String)
  agentPort : Option UInt16
  loadBinary : Option String
  latencyBinary : Option String
  loadThreads : Option UInt32
  latencyThreads : Option UInt32
  loadConnections : Option UInt32
  latencyConnections : Option UInt32
  interArrival : Option String
  appProtocol : Option String
  targetProtocol : Option TargetProtocol
  latencyRate : Option UInt32
  loadPattern : Option String
  intervalSize : Option UInt64
  keyCount : Option UInt32
  nicTimestamps : Option Bool
  maxTries : Option UInt32
  outputFormat : Option OutputFormat
deriving DecidableEq

namespace ConfigFile

def fieldNames : List (List String) :=
  [["target_host"], ["load_agents"], ["lt_agents"], ["sym_agents"], ["agent_port"],
    ["load_binary"], ["lt_binary"], ["load_threads"], ["lt_threads"],
    ["load_conn", "load_connections"], ["lt_conn", "lt_connections"], ["idist"], ["app_proto"],
    ["comm_proto"], ["lqps", "latency_rate"], ["load_pattern"], ["ci_size", "ci_size_us"],
    ["key_count"], ["nic_ts"], ["max_tries"], ["output_format"]]

/-- The data of all options in order, each under the name it is found by. -/
def gather (fields : List (String × Datum)) : Option (List Datum) :=
  fieldNames.mapM fun names =>
    match fields.filter fun field => names.contains field.1 with
    | [] => some .null
    | [field] => some field.2
    | _ => none

def optional? (read : Datum -> Option α) : Datum -> Option (Option α)
  | .null => some none
  | datum => (read datum).map some

def word32? (datum : Datum) : Option UInt32 := UInt32.ofNat <$> datum.natural? Text.greatest32

def targetProtocol? (word : String) : Option TargetProtocol :=
  if word ∈ ["TCP", "tcp"] then some .tcp
  else if word ∈ ["R2P2", "r2p2"] then some .r2p2
  else none

/-- The file that gives these data in order; `isUnit` says what may stand under the name of a
choice. -/
def ofData? (isUnit : Datum -> Bool) : List Datum -> Option ConfigFile
  | [targetHost, loadAgents, latencyAgents, symmetricAgents, agentPort, loadBinary, latencyBinary,
      loadThreads, latencyThreads, loadConnections, latencyConnections, interArrival, appProtocol,
      targetProtocol, latencyRate, loadPattern, intervalSize, keyCount, nicTimestamps, maxTries,
      outputFormat] => do
      return {
        targetHost := ← optional? Datum.text? targetHost
        loadAgents := ← optional? Datum.texts? loadAgents
        latencyAgents := ← optional? Datum.texts? latencyAgents
        symmetricAgents := ← optional? Datum.texts? symmetricAgents
        agentPort := ← optional? (fun d => UInt16.ofNat <$> d.natural? Text.greatest16) agentPort
        loadBinary := ← optional? Datum.text? loadBinary
        latencyBinary := ← optional? Datum.text? latencyBinary
        loadThreads := ← optional? word32? loadThreads
        latencyThreads := ← optional? word32? latencyThreads
        loadConnections := ← optional? word32? loadConnections
        latencyConnections := ← optional? word32? latencyConnections
        interArrival := ← optional? Datum.text? interArrival
        appProtocol := ← optional? Datum.text? appProtocol
        targetProtocol := ← optional? (Datum.choice? targetProtocol? isUnit) targetProtocol
        latencyRate := ← optional? word32? latencyRate
        loadPattern := ← optional? Datum.text? loadPattern
        intervalSize := ←
          optional? (fun d => UInt64.ofNat <$> d.natural? Text.greatest64) intervalSize
        keyCount := ← optional? word32? keyCount
        nicTimestamps := ← optional? Datum.boolean? nicTimestamps
        maxTries := ← optional? word32? maxTries
        outputFormat := ←
          optional? (Datum.choice? (Options.outputFormat? false) isUnit) outputFormat }
  | _ => none

def ofToml? (text : String) : Option ConfigFile := do
  ofData? Datum.isEmpty (← gather (Datum.ofNamedTomls (← Toml.fieldsOf? text)))

def ofJson? (text : String) : Option ConfigFile := do
  match Datum.ofTree (← Json.Tree.ofText? text) with
  | .table fields => ofData? Datum.isNull (← gather fields)
  | .list data => ofData? Datum.isNull data
  | _ => none

end ConfigFile
end LoadFleet
