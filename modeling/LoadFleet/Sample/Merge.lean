import LoadFleet.Sample.Totals

/-!
# Latencies merged over agents

Every merged number is the mean of the agents' numbers, rounded down and weighted by the
operations each agent completed. When no agent completed any, all weigh the same.
-/

namespace LoadFleet

structure MergedLatency where
  agents : Nat
  average : UInt64
  p50 : Estimate
  p90 : Estimate
  p95 : Estimate
  p99 : Estimate
  throughput : Totals
deriving DecidableEq

namespace MergedLatency

def totalWeight (stats : List LatencyStats) : Nat :=
  stats.foldr (fun s total => s.throughput.rxRequests.toNat + total) 0

/-- The weight of one agent where all agents together have a total weight. -/
def weight (total : Nat) (s : LatencyStats) : Nat :=
  if total = 0 then 1 else s.throughput.rxRequests.toNat

/-!
## Weighted means

A mean is taken of two sums that are added up agent by agent. The sum of the weighted numbers stays
at its greatest value once it is reached; the weights alone cannot come that far.
-/

def greatestSum : Nat := 340282366920938463463374607431768211455

structure Sums where
  weighted : Nat
  weights : Nat

def Sums.absorb (weight : LatencyStats -> Nat) (number : LatencyStats -> UInt64) (sums : Sums)
    (s : LatencyStats) : Sums where
  weighted := min (sums.weighted + min ((number s).toNat * weight s) greatestSum) greatestSum
  weights := sums.weights + weight s

def mean (weight : LatencyStats -> Nat) (number : LatencyStats -> UInt64)
    (stats : List LatencyStats) : UInt64 :=
  let sums := stats.foldl (Sums.absorb weight number) ⟨0, 0⟩
  Capped.word64 (sums.weighted / sums.weights)

def meanEstimate (weight : LatencyStats -> Nat) (estimate : LatencyStats -> Estimate)
    (stats : List LatencyStats) : Estimate where
  lower := mean weight (fun s => (estimate s).lower) stats
  value := mean weight (fun s => (estimate s).value) stats
  upper := mean weight (fun s => (estimate s).upper) stats

def ofStats (stats : List LatencyStats) : MergedLatency :=
  let weight := weight (totalWeight stats)
  { agents := stats.length
    average := mean weight LatencyStats.average stats
    p50 := meanEstimate weight LatencyStats.p50 stats
    p90 := meanEstimate weight LatencyStats.p90 stats
    p95 := meanEstimate weight LatencyStats.p95 stats
    p99 := meanEstimate weight LatencyStats.p99 stats
    throughput := Totals.ofCounters (stats.map LatencyStats.throughput) }

end MergedLatency
end LoadFleet
