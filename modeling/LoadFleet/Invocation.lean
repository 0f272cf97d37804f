import LoadFleet.Experiment
import LoadFleet.Options.Usage
import LoadFleet.Settings.Load

/-!
# Invocations

An invocation reads its command line, completes the arguments from the configuration file,
resolves them, starts agents, and runs the experiment. It ends in one text for the user and an exit
code; the first step that fails decides.
-/

namespace LoadFleet

inductive Conclusion where
  | complaint (complaint : Complaint)
  | failure (failure : Failure)
  | results (text : String)
deriving DecidableEq

namespace Conclusion

/-- The exit code: help and version are what was asked for, and other complaints about the command
line differ from failures. -/
def exitCode : Conclusion -> UInt32
  | .complaint .displayHelp => 0
  | .complaint .displayVersion => 0
  | .complaint _ => 2
  | .failure _ => 1
  | .results _ => 0

def output : Conclusion -> String
  | .results text => text
  | .complaint .displayHelp => Usage.text
  | .complaint .displayVersion => Usage.version
  | _ => ""

def diagnosis : Conclusion -> String
  | .failure f => f.message ++ "\n"
  | .complaint .displayHelp => ""
  | .complaint .displayVersion => ""
  | .complaint c => "error: " ++ c.message ++ "\n"
  | .results _ => ""

end Conclusion

namespace Invocation

def arguments [Monad m] (files : Files m) (noColor : Option String) (words : List String) :
    m (Except Conclusion Arguments) := do
  match CommandLine.read noColor words with
  | .error complaint => return .error (.complaint complaint)
  | .ok line => return (← line.complete files).mapError .failure

def run [Monad m] (machine : Machine m κ) (words : List String) : m Conclusion := do
  let noColor ← machine.environment CommandLine.noColorVariable
  match ← arguments machine.toFiles noColor words with
  | .error conclusion => return conclusion
  | .ok a =>
      match Settings.resolve a with
      | .error failure => return .failure failure
      | .ok settings =>
          match ← settings.run machine with
          | .error failure => return .failure failure
          | .ok outcome => return .results (outcome.text .standard settings.outputFormat)

end Invocation
end LoadFleet
