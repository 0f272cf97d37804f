import LoadFleet.Measurement.Symmetric

/-!
# One measurement with latency agents beside load agents

Throughput agents carry the load between them, while each latency agent runs at a low rate of its
own and is sampled more densely. Without throughput agents the latency agents work alone.
-/

namespace LoadFleet
namespace Measurement

def asymmetricWarmUp : Duration := .ofSeconds 10

def asymmetricPoint (loadRate latencyRate : UInt32) (samplingRate : Float) (tuning : Tuning)
    (waited : Duration) (loadReports : List ThroughputReport)
    (latencyReports : List LatencyReport) : Point :=
  let stats := latencyReports.map LatencyReport.stats
  let totals := Totals.ofCounters
    (loadReports.map ThroughputReport.stats ++ stats.map LatencyStats.throughput)
  let tuning := tuning.beginIteration
  { mode := .asymmetric
    offeredLoad := loadRate
    latencyRate := some latencyRate
    samplingRate
    sampleCount := tuning.sampleCount
    windowSeconds := waited.seconds
    iterations := tuning.iterations
    retries := tuning.retries
    rates := totals.rates waited
    totals
    latency := .ofStats stats
    trailers := (Trailers.ofReports latencyReports).extend loadReports }

def startBackground (agents : Nat) (loadRate : UInt32) : Procedure (Except Failure Unit) :=
  if agents = 0 then return .ok ()
  else Procedure.startLoad .throughput (share loadRate agents)

def asymmetric (throughputAgents : Nat) (loadRate latencyRate : UInt32) (tuning : Tuning) :
    Procedure (Except Failure Point) := do
  match ← startBackground throughputAgents loadRate with
  | .error failure => return .error failure
  | .ok _ =>
  match ← Procedure.startLoad .latency latencyRate with
  | .error failure => return .error failure
  | .ok _ =>
  Procedure.pause asymmetricWarmUp
  let samplingRate := Acceptance.latencySamplingRate loadRate latencyRate tuning.samplingRate
  match ← Procedure.startMeasure .load tuning.sampleCount samplingRate with
  | .error failure => return .error failure
  | .ok _ =>
  match ← window tuning.sampleCount latencyRate samplingRate with
  | .error failure => return .error failure
  | .ok waited =>
  Procedure.pause waited
  match ← Procedure.reportThroughput .throughput with
  | .error failure => return .error failure
  | .ok loadReports =>
  match ← Procedure.reportLatency .latency with
  | .error failure => return .error failure
  | .ok latencyReports =>
  return .ok (asymmetricPoint loadRate latencyRate samplingRate tuning waited loadReports
    latencyReports)

end Measurement
end LoadFleet
