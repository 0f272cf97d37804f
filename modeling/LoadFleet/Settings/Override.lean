import LoadFleet.Options.CommandLine
import LoadFleet.Settings.File

/-!
# Configuration files under the command line

A value from a file counts where its option is not given on the command line. The file's values
are checked in a fixed order, and only where they count.
-/

namespace LoadFleet
namespace ConfigFile

/-- The value of an option: the present one where the option is given or the file is silent, and
the checked value of the file otherwise. -/
def choose (given : List OptionId) (option : OptionId) (present : α)
    (check : β -> Except Failure α) (offered : Option β) : Except Failure α :=
  if option ∈ given then .ok present
  else
    match offered with
    | none => .ok present
    | some value => check value

def checkAgents (entries : List String) : Except Failure (List String) :=
  (Options.agentEntries entries).mapError .validation

def checkPositive32 (field : String) (value : UInt32) : Except Failure Positive32 :=
  (Positive32.ofWord? value).elim (.error (.config (.notPositive field))) .ok

def checkPositive64 (field : String) (value : UInt64) : Except Failure Positive64 :=
  (Positive64.ofWord? value).elim (.error (.config (.notPositive field))) .ok

def apply (f : ConfigFile) (line : CommandLine) : Except Failure Arguments := do
  let a := line.arguments
  let loadAgents ← choose line.given .loadAgents a.loadAgents checkAgents f.loadAgents
  let latencyAgents ← choose line.given .latencyAgents a.latencyAgents checkAgents f.latencyAgents
  let symmetricAgents ←
    choose line.given .symmetricAgents a.symmetricAgents checkAgents f.symmetricAgents
  let loadThreads ←
    choose line.given .loadThreads a.loadThreads (checkPositive32 "load_threads") f.loadThreads
  let latencyThreads ←
    choose line.given .latencyThreads a.latencyThreads (checkPositive32 "lt_threads")
      f.latencyThreads
  let loadConnections ←
    choose line.given .loadConnections a.loadConnections (checkPositive32 "load_conn")
      f.loadConnections
  let latencyConnections ←
    choose line.given .latencyConnections a.latencyConnections (checkPositive32 "lt_conn")
      f.latencyConnections
  let latencyRate ←
    choose line.given .latencyRate a.latencyRate (checkPositive32 "lqps") f.latencyRate
  let intervalSize ←
    choose line.given .intervalSize a.intervalSize (checkPositive64 "ci_size") f.intervalSize
  let maxTries ← choose line.given .maxTries a.maxTries (checkPositive32 "max_tries") f.maxTries
  return {
    targetHost := ← choose line.given .targetHost a.targetHost .ok f.targetHost
    loadAgents, latencyAgents, symmetricAgents
    agentPort := ← choose line.given .agentPort a.agentPort .ok f.agentPort
    loadBinary := ← choose line.given .loadBinary a.loadBinary (.ok ∘ some) f.loadBinary
    latencyBinary := ← choose line.given .latencyBinary a.latencyBinary (.ok ∘ some) f.latencyBinary
    loadThreads, latencyThreads, loadConnections, latencyConnections
    interArrival := ← choose line.given .interArrival a.interArrival .ok f.interArrival
    appProtocol := ← choose line.given .appProtocol a.appProtocol .ok f.appProtocol
    targetProtocol := ← choose line.given .targetProtocol a.targetProtocol .ok f.targetProtocol
    latencyRate
    loadPattern := ← choose line.given .loadPattern a.loadPattern .ok f.loadPattern
    intervalSize
    keyCount := ← choose line.given .keyCount a.keyCount .ok f.keyCount
    nicTimestamps := ← choose line.given .nicTimestamps a.nicTimestamps .ok f.nicTimestamps
    maxTries
    outputFormat := ← choose line.given .outputFormat a.outputFormat .ok f.outputFormat
    config := a.config
    verbose := a.verbose
    noColor := a.noColor }

end ConfigFile
end LoadFleet
