import LoadFleet.Binary64.Layout
import LoadFleet.Duration
import LoadFleet.Pattern.Basic
import LoadFleet.Protocol.Fault
import LoadFleet.Text.Hex

/-!
# Failures

Everything that can end a run, in six categories, with the wording that the user sees. A reason
given by the operating system, or by the reader of a file format, is kept as text.
-/

namespace LoadFleet

/-!
## Values given by the user
-/

inductive ValidationFault where
  | valueTooSmall (least : UInt64)
  | invalidNumber (fault : Text.NumeralFault)
  | emptyAgentName (value : String) (index : Nat)
  | noAgents
  | duplicateAgent (name : String)
  | invalidBoolean (value : String)
deriving DecidableEq

def ValidationFault.message : ValidationFault -> String
  | .valueTooSmall least => "Value must be >= " ++ Text.natural least.toNat ++ "."
  | .invalidNumber fault => "Invalid value: " ++ fault.message
  | .emptyAgentName value index =>
      "Agent list entry " ++ Text.natural index ++ " is empty in '" ++ value ++ "'."
  | .noAgents => "No agents configured. Set --load-agents/--lt-agents or --sym-agents."
  | .duplicateAgent name => "Agent '" ++ name ++ "' is listed more than once."
  | .invalidBoolean value => "Invalid boolean value '" ++ value ++ "'."

/-!
## Configuration
-/

inductive ConfigFault where
  | unreadable (path reason : String)
  | malformedToml (path reason : String)
  | malformedJson (path reason : String)
  | unsupportedExtension (extension : String)
  | missingExtension
  | notPositive (field : String)
  | invalidPattern (pattern : String) (defect : PatternDefect)
  | unknownPattern (pattern : String)
  | fixedRequiresSymmetric
  | corrRequiresSymmetric
  | asymmetricRequiresLatency
  /-- At this load and sampling rate the samples would never be complete. -/
  | noSampleFlow (load : UInt64) (samplingRate : Float)
deriving DecidableEq

/-- In messages a rate is always written positionally, and a whole one without a fraction. -/
def rateLayout : Binary64.Layout where
  positional _ := true
  fraction := false
  plus := false
  tie := .up
  nan := "NaN"
  infinity := "inf"

def ConfigFault.message : ConfigFault -> String
  | .unreadable path reason => "Failed to read config '" ++ path ++ "': " ++ reason
  | .malformedToml path reason => "Failed to parse TOML config '" ++ path ++ "': " ++ reason
  | .malformedJson path reason => "Failed to parse JSON config '" ++ path ++ "': " ++ reason
  | .unsupportedExtension extension =>
      "Unsupported config extension '" ++ extension ++ "'. Use .toml or .json."
  | .missingExtension => "Config file must have .toml or .json extension."
  | .notPositive field => "Config '" ++ field ++ "' must be >= 1."
  | .invalidPattern pattern defect =>
      "Invalid load pattern '" ++ pattern ++ "': " ++ defect.message
  | .unknownPattern pattern =>
      "Unknown load pattern '" ++ pattern ++ "'. Use fixed, step, test, or corr."
  | .fixedRequiresSymmetric => "Fixed pattern is only supported with symmetric agents."
  | .corrRequiresSymmetric => "Correlation sweep requires symmetric agents."
  | .asymmetricRequiresLatency => "Asymmetric test requires at least one latency agent."
  | .noSampleFlow load samplingRate =>
      "Measurement would never collect samples (load " ++ Text.natural load.toNat ++ " ops/s at "
        ++ rateLayout.text samplingRate ++ "% sampling)."

/-!
## Connections
-/

inductive TransportFault where
  | connect (agent address reason : String)
  | connectTimeout (agent address : String) (millis : UInt64)
  | write (agent reason : String)
  | shortWrite (agent : String) (written expected : Nat)
  | read (agent reason : String)
  | readTimeout (agent : String) (millis : UInt64)
  | closed (agent : String)
deriving DecidableEq

def TransportFault.message : TransportFault -> String
  | .connect agent address reason =>
      "Dial to agent " ++ agent ++ " at " ++ address ++ " failed: " ++ reason
  | .connectTimeout agent address millis =>
      "Dial to agent " ++ agent ++ " at " ++ address ++ " timed out after "
        ++ Text.natural millis.toNat ++ "ms."
  | .write agent reason => "Write to agent " ++ agent ++ " failed: " ++ reason
  | .shortWrite agent written expected =>
      "Short write to agent " ++ agent ++ " (" ++ Text.natural written ++ " of "
        ++ Text.natural expected ++ " bytes)."
  | .read agent reason => "Read from agent " ++ agent ++ " failed: " ++ reason
  | .readTimeout agent millis =>
      "Read from agent " ++ agent ++ " timed out after " ++ Text.natural millis.toNat ++ "ms."
  | .closed agent => "Agent " ++ agent ++ " closed the connection."

/-!
## Frames
-/

inductive ProtocolFault where
  | reply (agent : String) (raw : List UInt8) (source : WireFault)
  | replyKind (source : WireFault)
  | encode (source : WireFault)
deriving DecidableEq

def previewLength : Nat := 64

/-- The front of a byte string in hexadecimal, with its length where it is cut. -/
def preview (raw : List UInt8) : String :=
  let front := Text.hex (raw.take previewLength)
  if previewLength < raw.length then front ++ "... (" ++ Text.natural raw.length ++ " bytes)"
  else front

def ProtocolFault.message : ProtocolFault -> String
  | .reply agent raw source =>
      "Bad reply from agent " ++ agent ++ ": " ++ source.message ++ " (raw: " ++ preview raw ++ ")"
  | .replyKind source => "Collected reply has the wrong kind: " ++ source.message
  | .encode source => "Failed to encode command: " ++ source.message

/-!
## Experiments
-/

inductive ExperimentFault where
  | maxTriesReached (pattern : String) (iterations retries : UInt32) (phase : String)
deriving DecidableEq

def ExperimentFault.message : ExperimentFault -> String
  | .maxTriesReached pattern iterations retries phase =>
      "Max tries reached for '" ++ pattern ++ "' after " ++ Text.natural iterations.toNat
        ++ " iterations (" ++ Text.natural retries.toNat ++ " retries, last phase " ++ phase ++ ")."

/-!
## Starting agents
-/

inductive ExitStatus where
  | code (value : UInt8)
  | signal (number : Nat)
deriving DecidableEq

def signalNames : List String :=
  ["SIGHUP", "SIGINT", "SIGQUIT", "SIGILL", "SIGTRAP", "SIGABRT", "SIGBUS", "SIGFPE", "SIGKILL",
    "SIGUSR1", "SIGSEGV", "SIGUSR2", "SIGPIPE", "SIGALRM", "SIGTERM", "SIGSTKFLT", "SIGCHLD",
    "SIGCONT", "SIGSTOP", "SIGTSTP", "SIGTTIN", "SIGTTOU", "SIGURG", "SIGXCPU", "SIGXFSZ",
    "SIGVTALRM", "SIGPROF", "SIGWINCH", "SIGIO", "SIGPWR", "SIGSYS"]

def ExitStatus.message : ExitStatus -> String
  | .code value => "exit status: " ++ Text.natural value.toNat
  | .signal number =>
      let name := if number = 0 then none else signalNames[number - 1]?
      "signal: " ++ Text.natural number ++ ((name.map fun n => " (" ++ n ++ ")").getD "")

inductive DeployFault where
  | binaryUnreadable (path reason : String)
  | binaryWithoutName (path : String)
  | unknownUser
  | spawn (program host reason : String)
  | commandFailed (program host : String) (status : ExitStatus)
  | sessionEnded (host : String) (status : ExitStatus)
deriving DecidableEq

def DeployFault.message : DeployFault -> String
  | .binaryUnreadable path reason => "Agent binary '" ++ path ++ "' is not readable: " ++ reason
  | .binaryWithoutName path => "Agent binary path '" ++ path ++ "' has no file name."
  | .unknownUser => "Cannot determine the local user name (USER and LOGNAME are unset)."
  | .spawn program host reason => "Failed to run " ++ program ++ " for " ++ host ++ ": " ++ reason
  | .commandFailed program host status =>
      program ++ " for " ++ host ++ " exited with status " ++ status.message ++ "."
  | .sessionEnded host status =>
      "Remote session for " ++ host ++ " ended during startup with status " ++ status.message ++ "."

/-!
## Any failure
-/

inductive Failure where
  | validation (fault : ValidationFault)
  | config (fault : ConfigFault)
  | transport (fault : TransportFault)
  | protocol (fault : ProtocolFault)
  | experiment (fault : ExperimentFault)
  | deploy (fault : DeployFault)
deriving DecidableEq

/-- The wording of a failure, led by its category. -/
def Failure.message : Failure -> String
  | .validation fault => "Validation error: " ++ fault.message
  | .config fault => "Configuration error: " ++ fault.message
  | .transport fault => "Transport error: " ++ fault.message
  | .protocol fault => "Protocol error: " ++ fault.message
  | .experiment fault => "Experiment failure: " ++ fault.message
  | .deploy fault => "Deployment error: " ++ fault.message

end LoadFleet
