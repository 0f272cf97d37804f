import LoadFleet.Json.Value
import LoadFleet.Outcome.Point
import LoadFleet.Agent.Roster
import LoadFleet.Tuning.Basic

/-!
# Outcomes as JSON records

Every point is one line that holds one record. The records of the parts of a point, of reports, of
tunings and of rosters have the same names in the same order wherever they appear.
-/

namespace LoadFleet

open Json (Value)

namespace Record

def word32 (w : UInt32) : Value := .natural w.toNat

def word64 (w : UInt64) : Value := .natural w.toNat

def counters (c : Counters) : Value :=
  .record [("rx_bytes", word64 c.rxBytes), ("tx_bytes", word64 c.txBytes),
    ("rx_reqs", word64 c.rxRequests), ("tx_reqs", word64 c.txRequests)]

def estimate (e : Estimate) : Value :=
  .record [("lower", word64 e.lower), ("value", word64 e.value), ("upper", word64 e.upper)]

def latencyStats (s : LatencyStats) : Value :=
  .record [("throughput", counters s.throughput), ("avg_ns", word64 s.average),
    ("p50", estimate s.p50), ("p90", estimate s.p90), ("p95", estimate s.p95),
    ("p99", estimate s.p99)]

def trailer (t : Trailer) : Value :=
  .record [("convergence", word32 t.convergence), ("iid_correlation", .real t.correlation),
    ("ia_compliance", word32 t.interArrival)]

def throughputReport (r : ThroughputReport) : Value :=
  .record [("stats", counters r.stats), ("ia_compliance", .optional word32 r.interArrival)]

def latencyReport (r : LatencyReport) : Value :=
  .record [("stats", latencyStats r.stats), ("trailer", .optional trailer r.trailer)]

def totals (t : Totals) : Value :=
  .record [("agents", .natural t.agents), ("rx_bytes", word64 t.rxBytes),
    ("tx_bytes", word64 t.txBytes), ("rx_reqs", word64 t.rxRequests),
    ("tx_reqs", word64 t.txRequests)]

def rates (r : Rates) : Value :=
  .record [("rps", .real r.requests), ("rx_bytes_per_sec", .real r.rxBytes),
    ("tx_bytes_per_sec", .real r.txBytes), ("completed", word64 r.completed)]

def latency (l : MergedLatency) : Value :=
  .record [("agents", .natural l.agents), ("avg_ns", word64 l.average), ("p50", estimate l.p50),
    ("p90", estimate l.p90), ("p95", estimate l.p95), ("p99", estimate l.p99),
    ("throughput", totals l.throughput)]

def trailers (t : Trailers) : Value :=
  .record [("convergence", .list (t.convergence.map word32)),
    ("correlations", .list (t.correlations.map .real)),
    ("ia_compliance", .list (t.interArrival.map word32))]

def point (p : Point) : Value :=
  .record [("mode", .text p.mode.label), ("offered_load", word32 p.offeredLoad),
    ("latency_rate", .optional word32 p.latencyRate), ("sampling_rate", .real p.samplingRate),
    ("sample_count", word32 p.sampleCount), ("window_secs", word64 p.windowSeconds),
    ("iterations", word32 p.iterations), ("retries", word32 p.retries),
    ("throughput", rates p.rates), ("counters", totals p.totals),
    ("latency", latency p.latency), ("trailers", trailers p.trailers)]

def tuning (t : Tuning) : Value :=
  .record [("sample_count", word32 t.sampleCount), ("sampling_rate", .real t.samplingRate),
    ("phase", .text t.phase.label), ("iterations", word32 t.iterations),
    ("retries", word32 t.retries)]

def names (hosts : List String) : Value := .list (hosts.map .text)

def roster (r : Roster) : Value :=
  .record [("throughput", names r.throughput), ("latency", names r.latency),
    ("symmetric", names r.symmetric)]

end Record

namespace Outcome

/-- The text of an outcome: one record a line. -/
def records (o : Outcome) (writer : Json.Writer) : String :=
  String.ofList (o.points.flatMap fun p => (Record.point p).write writer ++ ['\n'])

end Outcome
end LoadFleet
