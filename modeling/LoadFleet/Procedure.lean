import LoadFleet.Agent.Role
import LoadFleet.Failure
import LoadFleet.Sample.Report

/-!
# Procedures

A procedure says, step by step, what is asked of a fleet of agents and how long is waited, and how
it goes on: from an answer to a request, or from its failure. It holds no agents itself: the same
procedure is carried out over connections, or over answers that are given in advance.
-/

namespace LoadFleet

inductive Request where
  | startLoad (group : Group) (load : UInt32)
  | startMeasure (group : Group) (sampleCount : UInt32) (samplingRate : Float)
  | reportThroughput (group : Group)
  | reportLatency (group : Group)
deriving DecidableEq

abbrev Request.Answer : Request -> Type
  | .startLoad _ _ => Unit
  | .startMeasure _ _ _ => Unit
  | .reportThroughput _ => List ThroughputReport
  | .reportLatency _ => List LatencyReport

def Request.group : Request -> Group
  | .startLoad group _ => group
  | .startMeasure group _ _ => group
  | .reportThroughput group => group
  | .reportLatency group => group

/-- Steps that end in a value. What follows a request is up to the procedure, also where the request
fails. -/
inductive Procedure (α : Type) where
  | done (value : α)
  | ask (request : Request) (next : Except Failure request.Answer -> Procedure α)
  | wait (span : Duration) (next : Procedure α)

namespace Procedure

def bind : Procedure α -> (α -> Procedure β) -> Procedure β
  | .done value, f => f value
  | .ask request next, f => .ask request fun given => (next given).bind f
  | .wait span next, f => .wait span (next.bind f)

instance : Monad Procedure where
  pure := done
  bind := bind

/-- One procedure for each item, one after the other, up to the first failure. -/
def each (f : α -> Procedure (Except Failure β)) : List α -> Procedure (Except Failure (List β))
  | [] => return .ok []
  | item :: rest => do
      match ← f item with
      | .error failure => return .error failure
      | .ok value =>
          match ← each f rest with
          | .error failure => return .error failure
          | .ok values => return .ok (value :: values)

/-!
## Single steps
-/

def pause (span : Duration) : Procedure Unit := .wait span (.done ())

def startLoad (group : Group) (load : UInt32) : Procedure (Except Failure Unit) :=
  .ask (.startLoad group load) .done

def startMeasure (group : Group) (sampleCount : UInt32) (samplingRate : Float) :
    Procedure (Except Failure Unit) :=
  .ask (.startMeasure group sampleCount samplingRate) .done

def reportThroughput (group : Group) : Procedure (Except Failure (List ThroughputReport)) :=
  .ask (.reportThroughput group) .done

def reportLatency (group : Group) : Procedure (Except Failure (List LatencyReport)) :=
  .ask (.reportLatency group) .done

/-!
## Carrying out a procedure
-/

inductive Event where
  | asked (request : Request)
  | paused (span : Duration)
deriving DecidableEq

structure Run (σ α : Type) where
  events : List Event
  result : Except Failure α
  fleet : σ

def Run.after (event : Event) (r : Run σ α) : Run σ α := { r with events := event :: r.events }

def run (answer : (request : Request) -> σ -> Except Failure request.Answer × σ) :
    Procedure (Except Failure α) -> σ -> Run σ α
  | .done result, fleet => ⟨[], result, fleet⟩
  | .wait span next, fleet => (run answer next fleet).after (.paused span)
  | .ask request next, fleet =>
      let (given, fleet) := answer request fleet
      (run answer (next given) fleet).after (.asked request)

/-- Carries out a procedure with effects: asking and waiting happen where they stand. -/
def perform [Monad m]
    (answer : (request : Request) -> σ -> m (Except Failure request.Answer × σ))
    (pause : Duration -> m Unit) :
    Procedure (Except Failure α) -> σ -> m (Except Failure α × σ)
  | .done result, fleet => pure (result, fleet)
  | .wait span next, fleet => do
      pause span
      perform answer pause next fleet
  | .ask request next, fleet => do
      let (given, fleet) ← answer request fleet
      perform answer pause (next given) fleet

end Procedure
end LoadFleet
