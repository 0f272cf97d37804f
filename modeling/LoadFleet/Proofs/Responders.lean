import LoadFleet.Proofs.Exchanges
import LoadFleet.Proofs.Procedures

/-!
# Agents that answer

A responder answers each command with a reply of the kind that the command expects.  An ideal fleet
hands the reports of its responders over directly, in their order.  A station is a link together
with the responder whose replies its peer writes; exchanging a command with it brings in the
responder's reply.
-/

namespace LoadFleet

/-- An agent that answers every command; its reports depend on all commands up to the one that asks
for them. -/
structure Responder where
  role : Role
  throughput : List Command -> ThroughputReport
  latency : List Command -> LatencyReport
  heard : List Command

namespace Responder

def reply (a : Responder) (commands : List Command) : Command -> Reply
  | .startLoad _ => .ack
  | .startMeasure _ _ => .ack
  | .report .throughput => .throughput (a.throughput commands)
  | .report .latency => .latency (a.latency commands)

theorem kind_reply (a : Responder) (commands : List Command) (c : Command) :
    (a.reply commands c).kind = c.replyKind := by
  cases c with
  | startLoad load => rfl
  | startMeasure sampleCount samplingRate => rfl
  | report kind => cases kind <;> rfl

def hear (a : Responder) (c : Command) : Responder :=
  { a with heard := a.heard ++ [c] }

/-- What a responder answers to a command. -/
def responds (a : Responder) (c : Command) : Reply :=
  a.reply (a.heard ++ [c]) c

def attend (a : Responder) (request : Request) : Responder :=
  if request.group.contains a.role then a.hear (Fleet.command request) else a

/-!
## Ideal fleets
-/

def count (agents : List Responder) (group : Group) : Nat :=
  (agents.filter fun a => group.contains a.role).length

def given (agents : List Responder) : (request : Request) -> request.Answer
  | .startLoad _ _ => ()
  | .startMeasure _ _ _ => ()
  | .reportThroughput group =>
      (agents.filter fun a => group.contains a.role).map fun a =>
        a.throughput (a.heard ++ [.report .throughput])
  | .reportLatency group =>
      (agents.filter fun a => group.contains a.role).map fun a =>
        a.latency (a.heard ++ [.report .latency])

/-- Answers a request without links. -/
def answer (request : Request) (agents : List Responder) :
    Except Failure request.Answer × List Responder :=
  (.ok (given agents request), agents.map fun a => a.attend request)

end Responder

/-- A link whose peer waits for a command and answers as a responder does. -/
structure Station where
  link : Link Peer
  agent : Responder
  role_eq : agent.role = link.role
  live : link.connection.state = .live
  unread : link.connection.unread = []
  received : link.connection.received = agent.heard.map Command.frame
  conduct : forall before c,
    link.connection.conduct ((before ++ [c]).map Command.frame) =
      .answer (agent.reply (before ++ [c]) c).encode

namespace Responder

/-!
## A station for every responder
-/

/-- How a peer reacts that answers commands as a responder does, and nothing else. -/
def conduct (a : Responder) (writes : List (List UInt8)) : Behaviour :=
  match writes.mapM fun bytes => (Command.decode bytes).toOption with
  | none => .silent
  | some commands =>
      match commands.getLast? with
      | none => .silent
      | some c => .answer (a.reply commands c).encode

theorem conduct_frames (a : Responder) (before : List Command) (c : Command) :
    a.conduct ((before ++ [c]).map Command.frame) =
      .answer (a.reply (before ++ [c]) c).encode := by
  have hdecoded : ((before ++ [c]).map Command.frame).mapM
      (fun bytes => (Command.decode bytes).toOption) = some (before ++ [c]) := by
    have hframe : forall command : Command,
        (Command.decode command.frame).toOption = pure (id command) := by
      intro command
      rw [command.decode_frame]
      rfl
    have hall := mapM_map_pure (f := fun bytes => (Command.decode bytes).toOption)
      fun command (_ : command ∈ before ++ [c]) => hframe command
    rw [List.map_id] at hall
    exact hall
  simp only [conduct, hdecoded, List.getLast?_concat]

def station (a : Responder) (name address : String) : Station where
  link :=
    { name, role := a.role, address
      connection := ⟨a.conduct, a.heard.map Command.frame, [], .live⟩ }
  agent := a
  role_eq := rfl
  live := rfl
  unread := rfl
  received := rfl
  conduct := a.conduct_frames

end Responder

namespace Station

/-!
## One command at one station
-/

def sent (s : Station) (c : Command) : Link Peer :=
  { s.link with
    connection :=
      { s.link.connection with
        received := s.link.connection.received ++ [c.frame]
        unread := (s.agent.responds c).encode } }

def hear (s : Station) (c : Command) : Station where
  link :=
    { s.link with
      connection :=
        { s.link.connection with
          received := s.link.connection.received ++ [c.frame] } }
  agent := s.agent.hear c
  role_eq := s.role_eq
  live := s.live
  unread := s.unread
  received := by
    show s.link.connection.received ++ [c.frame] = (s.agent.heard ++ [c]).map Command.frame
    rw [s.received, List.map_append]
    rfl
  conduct := s.conduct

theorem send_eq (s : Station) (c : Command) :
    Link.send (m := Id) Peer.medium c.frame s.link = (.ok (), s.sent c) := by
  have hconduct := s.conduct s.agent.heard c
  rw [List.map_append, ← s.received] at hconduct
  exact Link.send_taken (Peer.write_answered s.live s.unread hconduct)

theorem read_eq (s : Station) (c : Command) :
    (s.sent c).connection.read c.replyKind.bufferLength =
      (.bytes (s.agent.responds c).encode, (s.hear c).link.connection) := by
  have hread : (s.sent c).connection.read (s.agent.responds c).kind.bufferLength = _ :=
    Peer.read_reply rfl
  rw [← s.agent.kind_reply (s.agent.heard ++ [c]) c]
  refine hread.trans ?_
  rw [← s.unread]
  rfl

/-!
## One command at several stations
-/

theorem readEach_eq (stations : List Station) (c : Command) (deadline : Duration) :
    Peer.medium.readEach (stations.map fun s => (s.sent c).connection)
        c.replyKind.bufferLength deadline =
      stations.map fun s =>
        (Heard.bytes (s.agent.responds c).encode, (s.hear c).link.connection) := by
  show (stations.map fun s => (s.sent c).connection).map
    (fun p => p.read c.replyKind.bufferLength) = _
  rw [List.map_map]
  exact List.map_congr_left fun s _ => s.read_eq c

theorem exchange_eq (stations : List Station) (c : Command) :
    Link.exchange (m := Id) Peer.medium c (stations.map link) =
      (.ok (stations.map fun s => s.agent.responds c), stations.map fun s => (s.hear c).link) :=
  Link.exchange_each Ending.lawful_join (fun s _ => s.agent.kind_reply (s.agent.heard ++ [c]) c)
    (fun s _ => s.send_eq c) (readEach_eq stations c _) fun _ => rfl

end Station
end LoadFleet
