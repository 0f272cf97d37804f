import LoadFleet.Agent.Roster
import LoadFleet.Link.Exchange
import LoadFleet.Procedure

/-!
# Fleets of links

A fleet is the list of its links in registration order. A request goes to the links of its group
and leaves all others as they are.
-/

namespace LoadFleet

abbrev Fleet (κ : Type) := List (Link κ)

namespace Fleet

def dialDeadline : Duration := .ofSeconds 5

def address (name : String) (port : UInt16) : String :=
  name ++ ":" ++ Text.natural port.toNat

def dialFailure (name address : String) : DialFault -> Failure
  | .refused reason => .transport (.connect name address reason)
  | .timedOut => .transport (.connectTimeout name address dialDeadline.millis)

/-- Opens a connection to each agent in order, up to the first failure. -/
def connect [Monad m] (dial : (name : String) -> (port : UInt16) -> m (Except DialFault κ))
    (port : UInt16) : List (String × Role) -> m (Except Failure Unit × Fleet κ)
  | [] => pure (.ok (), [])
  | (name, role) :: rest => do
      match ← dial name port with
      | .error fault => return (.error (dialFailure name (address name port) fault), [])
      | .ok connection =>
          let (result, links) ← connect dial port rest
          return (result, { name, role, address := address name port, connection } :: links)

def select (group : Group) (fleet : Fleet κ) : List (Link κ) :=
  fleet.filter fun link => group.contains link.role

def count (fleet : Fleet κ) (group : Group) : Nat := (fleet.select group).length

/-- A fleet whose links of a group are replaced, in order, by others. -/
def replace (group : Group) : Fleet κ -> List (Link κ) -> Fleet κ
  | [], _ => []
  | link :: rest, others =>
      if group.contains link.role then
        match others with
        | [] => link :: rest
        | other :: others => other :: replace group rest others
      else link :: replace group rest others

def onGroup [Monad m] (group : Group) (act : List (Link κ) -> m (α × List (Link κ)))
    (fleet : Fleet κ) : m (α × Fleet κ) := do
  let (result, links) ← act (fleet.select group)
  return (result, fleet.replace group links)

def reports (extract : Reply -> Except WireFault α) (replies : List Reply) :
    Except Failure (List α) :=
  replies.mapM fun reply => (extract reply).mapError fun fault => .protocol (.replyKind fault)

def command : Request -> Command
  | .startLoad _ load => .startLoad load
  | .startMeasure _ sampleCount samplingRate => .startMeasure sampleCount samplingRate
  | .reportThroughput _ => .report .throughput
  | .reportLatency _ => .report .latency

def answerOf : (request : Request) -> List Reply -> Except Failure request.Answer
  | .startLoad _ _, _ => .ok ()
  | .startMeasure _ _ _, _ => .ok ()
  | .reportThroughput _, replies => reports Reply.toThroughput replies
  | .reportLatency _, replies => reports Reply.toLatency replies

def answer [Monad m] (medium : Medium m κ) (request : Request) (fleet : Fleet κ) :
    m (Except Failure request.Answer × Fleet κ) := do
  let (replies, fleet) ← fleet.onGroup request.group (Link.exchange medium (command request))
  return (replies.bind (answerOf request), fleet)

end Fleet
end LoadFleet
