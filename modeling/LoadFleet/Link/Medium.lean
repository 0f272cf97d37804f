import LoadFleet.Agent.Role
import LoadFleet.Failure
import LoadFleet.Protocol.Reply

/-!
# Connections

A medium says what can be done with connections of some kind, in some monad: to write bytes at
once, to read once from each of several connections within a deadline, and to join what these reads
came to. Nothing above it knows whether a connection is a socket or a peer held in memory.
-/

namespace LoadFleet

inductive Written where
  | taken (count : Nat)
  | failed (reason : String)
deriving DecidableEq

/-- What one read brought in; no bytes at all mean that the other side has hung up. -/
inductive Heard where
  | bytes (bytes : List UInt8)
  | silence
  | failed (reason : String)
deriving DecidableEq

def Heard.isSilence : Heard -> Bool
  | .silence => true
  | _ => false

/-!
## Joining reads

Several reads are waited for together. How they are joined is left to the medium: only rules that a
join may be relied on to keep are stated here.
-/

/-- How a read ended: whether it waited until its deadline, and what it came to. -/
structure Ending where
  waited : Bool
  result : Except Failure Reply

/-- A join gives all replies in the order of the reads, or one failure that it found. Where no read
had to be waited for, it goes through them in their order. -/
structure LawfulJoin (join : List Ending -> Except Failure (List Reply)) : Prop where
  all_iff : forall endings replies,
    join endings = .ok replies <-> endings.map Ending.result = replies.map .ok
  found : forall endings failure, join endings = .error failure ->
    exists ending, ending ∈ endings ∧ ending.result = .error failure
  inOrder : forall endings, (forall ending, ending ∈ endings -> ending.waited = false) ->
    join endings = endings.mapM Ending.result

/-- Joins reads that have all ended: silence counts only where nothing worse was heard. -/
def Ending.join (endings : List Ending) : Except Failure (List Reply) := do
  let _ ← (endings.filter fun ending => !ending.waited).mapM Ending.result
  endings.mapM Ending.result

structure Medium (m : Type -> Type) (κ : Type) where
  write : κ -> List UInt8 -> m (Written × κ)
  /-- Reads once from each connection, at most `limit` bytes before the deadline. -/
  readEach : List κ -> (limit : Nat) -> (deadline : Duration) -> m (List (Heard × κ))
  join : List Ending -> Except Failure (List Reply)

inductive DialFault where
  | refused (reason : String)
  | timedOut
deriving DecidableEq

structure Link (κ : Type) where
  name : String
  role : Role
  address : String
  connection : κ

end LoadFleet
