import LoadFleet.Measurement.Symmetric

/-!
# Measuring at a fixed rate until the samples are accepted

Every try measures once. While the throughput is outside its band a try probes it for a second;
after that a try waits for latency samples, and their verdict adapts the parameters of the next
try. The tries are counted against a budget.
-/

namespace LoadFleet
namespace Measurement

def fixedSettle : Duration := .ofSeconds 2

def throughputProbe : Duration := .ofSeconds 1

/-- Waited for in addition to the measurement window. -/
def latencySlack : Duration := .ofSeconds 1

structure FixedSetting where
  agents : Nat
  rate : UInt32
  widestMicros : UInt64

namespace FixedSetting

def load (s : FixedSetting) : UInt32 := share s.rate s.agents

def samplingRate (s : FixedSetting) (t : Tuning) : Float :=
  (agentWord s.agents).toFloat * t.samplingRate

def point (s : FixedSetting) (measured accepted : Tuning) (waited : Duration)
    (reports : List LatencyReport) : Point :=
  let latency := MergedLatency.ofStats (reports.map LatencyReport.stats)
  { mode := .fixed
    offeredLoad := s.rate
    latencyRate := none
    samplingRate := measured.samplingRate
    sampleCount := measured.sampleCount
    windowSeconds := waited.seconds
    iterations := accepted.iterations
    retries := accepted.retries
    rates := latency.throughput.rates waited
    totals := latency.throughput
    latency
    trailers := .ofReports reports }

def probed (reports : List ThroughputReport) : Float :=
  ((Totals.ofCounters (reports.map ThroughputReport.stats)).rates throughputProbe).requests

def verdict (s : FixedSetting) (reports : List LatencyReport) : Verdict :=
  Acceptance.judge (Trailers.ofReports reports).correlations
    (MergedLatency.ofStats (reports.map LatencyReport.stats)).p99 s.widestMicros

def probe (s : FixedSetting) (t : Tuning) : Procedure (Except Failure Tuning) := do
  match ← Procedure.startMeasure .symmetric t.sampleCount (s.samplingRate t) with
  | .error failure => return .error failure
  | .ok _ =>
  Procedure.pause throughputProbe
  match ← Procedure.reportThroughput .symmetric with
  | .error failure => return .error failure
  | .ok reports =>
  return .ok (if Acceptance.throughputInBand (probed reports) s.rate then t.acceptThroughput
    else t.retry)

def measure (s : FixedSetting) (t : Tuning) :
    Procedure (Except Failure (Tuning × Option Point)) := do
  match ← Procedure.startMeasure .symmetric t.sampleCount (s.samplingRate t) with
  | .error failure => return .error failure
  | .ok _ =>
  match ← window t.sampleCount s.load (s.samplingRate t) with
  | .error failure => return .error failure
  | .ok window =>
  let waited := window.add latencySlack
  Procedure.pause waited
  match ← Procedure.reportLatency .symmetric with
  | .error failure => return .error failure
  | .ok reports =>
  let verdict := s.verdict reports
  let next := t.apply verdict
  return .ok (next, if verdict = .accept then some (s.point t next waited reports) else none)

/-- One try: the parameters after it, and the point if it is accepted. -/
def attempt (s : FixedSetting) (t : Tuning) :
    Procedure (Except Failure (Tuning × Option Point)) :=
  let t := t.beginIteration
  match t.phase with
  | .throughput => do
      match ← s.probe t with
      | .error failure => return .error failure
      | .ok next => return .ok (next, none)
  | .latency => s.measure t
  | .exit => return .ok (t, none)

def exhausted (s : FixedSetting) (t : Tuning) : Failure :=
  .experiment (.maxTriesReached (Pattern.fixed s.rate).text t.iterations t.retries t.phase.label)

def attempts (s : FixedSetting) : (tries : Nat) -> Tuning -> Procedure (Except Failure Point)
  | 0, t => return .error (s.exhausted t)
  | tries + 1, t => do
      match ← s.attempt t with
      | .error failure => return .error failure
      | .ok (_, some point) => return .ok point
      | .ok (next, none) => attempts s tries next

end FixedSetting

def fixed (agents : Nat) (rate : UInt32) (widestMicros : UInt64) (maxTries : UInt32)
    (tuning : Tuning) : Procedure (Except Failure Point) := do
  let setting : FixedSetting := { agents, rate, widestMicros }
  match ← Procedure.startLoad .symmetric setting.load with
  | .error failure => return .error failure
  | .ok _ =>
  Procedure.pause fixedSettle
  setting.attempts maxTries.toNat tuning

end Measurement
end LoadFleet
