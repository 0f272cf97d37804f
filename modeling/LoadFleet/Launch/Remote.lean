import LoadFleet.Directory.Files
import LoadFleet.Launch.Plan

/-!
# Starting agents on remote hosts

The binary is copied into a directory of the local user on the host and run there in a session of
its own. Every step needs the one before it, and the first failure ends the deployment.
-/

namespace LoadFleet

structure Shell (m : Type -> Type) extends Files m where
  /-- Runs a program to its end, or gives the reason why it cannot be started. -/
  run : (program : String) -> (arguments : List String) -> m (Except String ExitStatus)
  /-- Starts a program and leaves it running; a program that ends at once has a status. -/
  start : (program : String) -> (arguments : List String) -> m (Except String (Option ExitStatus))

/-- A started agent; `managed` says whether its session is held open here. -/
structure DeployedAgent where
  host : String
  managed : Bool
deriving DecidableEq

namespace Launch

def stagingDirectory (user : String) : String := "/tmp/" ++ user

def launchLine (remote : String) (arguments : List String) : String :=
  "ulimit -c unlimited && sudo " ++ remote ++ " " ++ String.intercalate " " arguments

/-- The name that agents are deployed under, from the two variables it may be in. -/
def user (user logname : Option String) : Except Failure String :=
  match user.or logname with
  | some name => .ok name
  | none => .error (.deploy .unknownUser)

def checkRun (program host : String) : Except String ExitStatus -> Except Failure Unit
  | .error reason => .error (.deploy (.spawn program host reason))
  | .ok (.code 0) => .ok ()
  | .ok status => .error (.deploy (.commandFailed program host status))

def checkSession (host : String) : Except String (Option ExitStatus) -> Except Failure DeployedAgent
  | .error reason => .error (.deploy (.spawn "ssh" host reason))
  | .ok (some status) => .error (.deploy (.sessionEnded host status))
  | .ok none => .ok { host, managed := true }

def deploy [Monad m] (shell : Shell m) (user host binary : String) (arguments : List String) :
    m (Except Failure DeployedAgent) := ExceptT.run do
  if let .error reason ← shell.check binary then
    throw (.deploy (.binaryUnreadable binary reason))
  let some name := Path.fileName? binary
    | throw (.deploy (.binaryWithoutName binary))
  let staging := stagingDirectory user
  let remote := staging ++ "/" ++ name
  ExceptT.mk (return checkRun "ssh" host (← shell.run "ssh" [host, "mkdir", "-p", staging]))
  ExceptT.mk
    (return checkRun "scp" host (← shell.run "scp" ["-p", binary, host ++ ":" ++ remote]))
  ExceptT.mk
    (return checkSession host (← shell.start "ssh" ["-tt", host, launchLine remote arguments]))

def deployAll [Monad m] (deploy : Launch -> m (Except Failure α)) :
    List Launch -> m (Except Failure (List α))
  | [] => pure (.ok [])
  | launch :: rest => do
      match ← deploy launch with
      | .error failure => return .error failure
      | .ok agent => return (agent :: ·) <$> (← deployAll deploy rest)

def settleTime : Duration := .ofSeconds 5

def deployPlan [Monad m] (deploy : Launch -> m (Except Failure α)) (pause : Duration -> m Unit)
    (plan : List Launch) : m (Except Failure (List α)) := do
  if plan.isEmpty then
    return .ok []
  match ← deployAll deploy plan with
  | .error failure => return .error failure
  | .ok agents =>
      pause settleTime
      return .ok agents

end Launch
end LoadFleet
