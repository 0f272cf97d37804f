import LoadFleet.Directory.Files
import LoadFleet.Link.Peer
import LoadFleet.Machine.Basic

/-!
# Machines held in memory

A staged machine has its files in a directory, and its programs are stand-ins: each call is
recorded, and a program ends as it is told to, unless it is missing. Agents wait to be dialled in a
fixed order, and a connection is the index of its agent; each refuses to be dialled or holds a peer.
Time passes at once and is added up.
-/

namespace LoadFleet

structure Stage where
  directory : Directory
  environment : List (String × String)
  missing : List String
  exit : (program : String) -> ExitStatus
  /-- How a program that is left running ends at once, if it does. -/
  sessionExit : Option ExitStatus

structure StageState where
  agents : List (Except DialFault Peer)
  dialled : Nat
  calls : List (List String)
  elapsed : Duration

namespace StageState

def start (agents : List (Except DialFault Peer)) : StageState := ⟨agents, 0, [], .ofSeconds 0⟩

def onPeer (index : Nat) (absent : α) (act : Peer -> α × Peer) (s : StageState) : α × StageState :=
  match s.agents[index]? with
  | some (.ok peer) =>
      let (result, peer) := act peer
      (result, { s with agents := s.agents.set index (.ok peer) })
  | _ => (absent, s)

def commands (s : StageState) : List (List (Except WireFault Command)) :=
  s.agents.map fun
    | .ok peer => peer.commands
    | .error _ => []

end StageState

namespace Stage

def refusalReason : String := "Connection refused (os error 111)"

def missingReason : String := "No such file or directory (os error 2)"

def call (stage : Stage) (program : String) (arguments : List String) (ending : α)
    (s : StageState) : Except String α × StageState :=
  if program ∈ stage.missing then (.error missingReason, s)
  else (.ok ending, { s with calls := s.calls ++ [program :: arguments] })

def dial (s : StageState) : Except DialFault Nat × StageState :=
  match s.agents[s.dialled]? with
  | none => (.error (.refused refusalReason), s)
  | some agent => (agent.map fun _ => s.dialled, { s with dialled := s.dialled + 1 })

def write (index : Nat) (bytes : List UInt8) (s : StageState) : (Written × Nat) × StageState :=
  let (written, s) := s.onPeer index (.failed Peer.refusalReason) fun p => p.write bytes
  ((written, index), s)

def readEach (limit : Nat) : List Nat -> StageState -> List (Heard × Nat) × StageState
  | [], s => ([], s)
  | index :: rest, s =>
      let (heard, s) := s.onPeer index (.failed Peer.breakReason) fun p => p.read limit
      let (others, s) := readEach limit rest s
      ((heard, index) :: others, s)

def machine (stage : Stage) : Machine (StateM StageState) Nat where
  toFiles := stage.directory.files
  run program arguments := stage.call program arguments (stage.exit program)
  start program arguments := stage.call program arguments stage.sessionExit
  environment name := pure (stage.environment.lookup name)
  dial _ _ := dial
  medium := {
    write := write
    readEach := fun indices limit _ => readEach limit indices
    join := Ending.join }
  pause span := modify fun s => { s with elapsed := s.elapsed.add span }

end Stage
end LoadFleet
