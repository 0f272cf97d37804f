import LoadFleet.Capped

/-!
# What agents report

A throughput report holds the counters of one measurement window. A latency report adds the mean
and four percentiles of the sampled latencies in nanoseconds, and a trailer where the agent
judged its own samples.
-/

namespace LoadFleet

/-- Bytes and requests received and sent in a measurement window. The requests received are the
completed operations. -/
structure Counters where
  rxBytes : UInt64
  txBytes : UInt64
  rxRequests : UInt64
  txRequests : UInt64
deriving DecidableEq

structure Estimate where
  lower : UInt64
  value : UInt64
  upper : UInt64
deriving DecidableEq

/-- The width of the confidence interval, zero where the bounds are out of order. -/
def Estimate.width (e : Estimate) : UInt64 := Capped.sub64 e.upper e.lower

structure LatencyStats where
  throughput : Counters
  average : UInt64
  p50 : Estimate
  p90 : Estimate
  p95 : Estimate
  p99 : Estimate
deriving DecidableEq

/-- What an agent found out about its own samples: a convergence flag, the correlation of
neighbouring samples, and whether it kept its inter-arrival distribution. -/
structure Trailer where
  convergence : UInt32
  correlation : Float
  interArrival : UInt32
deriving DecidableEq

structure ThroughputReport where
  stats : Counters
  interArrival : Option UInt32
deriving DecidableEq

structure LatencyReport where
  stats : LatencyStats
  trailer : Option Trailer
deriving DecidableEq

end LoadFleet
