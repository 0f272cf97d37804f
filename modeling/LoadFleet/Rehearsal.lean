import LoadFleet.Measurement.Pattern

/-!
# Rehearsals

In a rehearsal a procedure is carried out over reports that are given in advance: the sets of
reports are handed out one after the other, and one request may fail. Several procedures can be
rehearsed in a row over the same script.
-/

namespace LoadFleet

structure Script where
  throughput : Nat -> List ThroughputReport
  latency : Nat -> List LatencyReport
  /-- The request with this index fails. -/
  failing : Option (Nat × Failure)

namespace Script

/-- The sets of a list one after the other, the last one again and again. -/
def repeating (sets : List (List α)) (n : Nat) : List α :=
  sets.getD (min n (sets.length - 1)) []

structure Progress where
  requests : Nat
  throughputs : Nat
  latencies : Nat
deriving DecidableEq

def Progress.start : Progress := ⟨0, 0, 0⟩

def failure? (s : Script) (index : Nat) : Option Failure :=
  match s.failing with
  | some (n, failure) => if n = index then some failure else none
  | none => none

def hand (s : Script) (p : Progress) : (request : Request) -> request.Answer × Progress
  | .startLoad _ _ => ((), p)
  | .startMeasure _ _ _ => ((), p)
  | .reportThroughput _ => (s.throughput p.throughputs, { p with throughputs := p.throughputs + 1 })
  | .reportLatency _ => (s.latency p.latencies, { p with latencies := p.latencies + 1 })

def answer (s : Script) (request : Request) (p : Progress) :
    Except Failure request.Answer × Progress :=
  let next := { p with requests := p.requests + 1 }
  match s.failure? p.requests with
  | some failure => (.error failure, next)
  | none =>
      let (given, next) := s.hand next request
      (.ok given, next)

end Script

def Procedure.rehearse (s : Script) (p : Procedure (Except Failure α))
    (progress : Script.Progress) : Procedure.Run Script.Progress α :=
  p.run s.answer progress

def Procedure.elapsed (events : List Procedure.Event) : Duration :=
  events.foldl
    (fun total event =>
      match event with
      | .paused span => total.add span
      | .asked _ => total)
    (.ofSeconds 0)

end LoadFleet
