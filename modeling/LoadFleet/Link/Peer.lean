import LoadFleet.Link.Fleet

/-!
# Agents held in memory

A peer reacts to each write it takes according to what it has been told so far: it answers with
bytes or stays silent, hangs up or breaks off, refuses the write or takes only the front of it. Its
answers wait as one stream of bytes until they are read. Once it has hung up or broken off, writes
still go through but reach nobody; what it wrote before can still be read.
-/

namespace LoadFleet

inductive Behaviour where
  | answer (bytes : List UInt8)
  | silent
  | hangUp
  | breakOff
  | refuse
  | accept (count : Nat)
deriving DecidableEq

inductive StreamEnd where
  | live
  | closed
  | broken
deriving DecidableEq

structure Peer where
  /-- The reaction to the last of all writes so far. -/
  conduct : List (List UInt8) -> Behaviour
  received : List (List UInt8)
  unread : List UInt8
  state : StreamEnd

namespace Peer

def fresh (conduct : List (List UInt8) -> Behaviour) : Peer := ⟨conduct, [], [], .live⟩

/-- Reacts to the first, second, … write as listed, and hangs up after that. -/
def scripted (script : List Behaviour) : Peer :=
  fresh fun history => script.getD (history.length - 1) .hangUp

def refusalReason : String := "Broken pipe (os error 32)"

def breakReason : String := "Connection reset by peer (os error 104)"

def write (p : Peer) (bytes : List UInt8) : Written × Peer :=
  if p.state = .live then
    let took (count : Nat) := { p with received := p.received ++ [bytes.take count] }
    match p.conduct (p.received ++ [bytes]) with
    | .answer reply =>
        (.taken bytes.length, { took bytes.length with unread := p.unread ++ reply })
    | .silent => (.taken bytes.length, took bytes.length)
    | .hangUp => (.taken bytes.length, { took bytes.length with state := .closed })
    | .breakOff => (.taken bytes.length, { took bytes.length with state := .broken })
    | .refuse => (.failed refusalReason, p)
    | .accept count => (.taken (min count bytes.length), took count)
  else (.taken bytes.length, p)

def read (p : Peer) (limit : Nat) : Heard × Peer :=
  if p.unread.isEmpty then
    match p.state with
    | .live => (.silence, p)
    | .closed => (.bytes [], p)
    | .broken => (.failed breakReason, p)
  else (.bytes (p.unread.take limit), { p with unread := p.unread.drop limit })

def medium : Medium Id Peer where
  write := write
  readEach peers limit _ := peers.map fun p => p.read limit
  join := Ending.join

def fleet (port : UInt16) (agents : List (String × Role × Peer)) : Fleet Peer :=
  agents.map fun (name, role, peer) =>
    { name, role, address := Fleet.address name port, connection := peer }

def commands (p : Peer) : List (Except WireFault Command) := p.received.map Command.decode

end Peer

def Procedure.runOver (p : Procedure (Except Failure α)) (fleet : Fleet Peer) :
    Procedure.Run (Fleet Peer) α :=
  p.run (fun request fleet => Id.run (Fleet.answer Peer.medium request fleet)) fleet

end LoadFleet
