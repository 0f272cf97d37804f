import LoadFleet.Outcome.Point
import LoadFleet.Procedure
import LoadFleet.Tuning.Acceptance

/-!
# One measurement on symmetric agents

The agents warm up under their share of the load, measure for as long as the samples take, and
cool down after they reported. Nothing is judged.
-/

namespace LoadFleet
namespace Measurement

def agentWord (agents : Nat) : UInt32 := Capped.word32 agents

/-- What each of several agents offers of a load; nothing where there is no agent. -/
def share (load : UInt32) (agents : Nat) : UInt32 := load / agentWord agents

def window (sampleCount load : UInt32) (samplingRate : Float) :
    Procedure (Except Failure Duration) :=
  match Acceptance.measurementWindow sampleCount load samplingRate with
  | .error fault => return .error (.config fault)
  | .ok waited => return .ok waited

def symmetricWarmUp : Duration := .ofSeconds 5

def symmetricCoolDown : Duration := .ofSeconds 5

def symmetricPoint (rate : UInt32) (tuning : Tuning) (waited : Duration)
    (reports : List LatencyReport) : Point :=
  let latency := MergedLatency.ofStats (reports.map LatencyReport.stats)
  let tuning := tuning.beginIteration
  { mode := .symmetric
    offeredLoad := rate
    latencyRate := none
    samplingRate := tuning.samplingRate
    sampleCount := tuning.sampleCount
    windowSeconds := waited.seconds
    iterations := tuning.iterations
    retries := tuning.retries
    rates := latency.throughput.rates waited
    totals := latency.throughput
    latency
    trailers := .ofReports reports }

def symmetric (agents : Nat) (rate : UInt32) (tuning : Tuning) :
    Procedure (Except Failure Point) := do
  let load := share rate agents
  match ← Procedure.startLoad .symmetric load with
  | .error failure => return .error failure
  | .ok _ =>
  Procedure.pause symmetricWarmUp
  match ← Procedure.startMeasure .symmetric tuning.sampleCount tuning.samplingRate with
  | .error failure => return .error failure
  | .ok _ =>
  match ← window tuning.sampleCount load tuning.samplingRate with
  | .error failure => return .error failure
  | .ok waited =>
  Procedure.pause waited
  match ← Procedure.reportLatency .symmetric with
  | .error failure => return .error failure
  | .ok reports =>
  Procedure.pause symmetricCoolDown
  return .ok (symmetricPoint rate tuning waited reports)

end Measurement
end LoadFleet
