import LoadFleet.Binary64.Layout
import LoadFleet.Binary64.Places
import LoadFleet.Outcome.Point

/-!
# Outcomes as a listing

Each point is a block of lines, and blocks are parted by an empty line. Latencies are shown in
microseconds.
-/

namespace LoadFleet
namespace Listing

/-- Numbers from a ten-thousandth to below ten to the sixteenth are written positionally, and a
whole number keeps a fraction. -/
def correlationLayout : Binary64.Layout where
  positional point := decide (-3 ≤ point ∧ point ≤ 16)
  fraction := true
  plus := false
  tie := .up
  nan := "NaN"
  infinity := "inf"

def bracketed (items : List String) : String :=
  "[" ++ String.intercalate ", " items ++ "]"

def word32 (w : UInt32) : String := Text.natural w.toNat

def word64 (w : UInt64) : String := Text.natural w.toNat

/-- A count of nanoseconds in microseconds, by way of seconds. -/
def micros (nanos : UInt64) : Float :=
  (Duration.ofNanos nanos.toNat).toSeconds * 1000000.0

def estimate (e : Estimate) : String :=
  Binary64.fixed 3 (micros e.value) ++ " [" ++ Binary64.fixed 3 (micros e.lower) ++ ", "
    ++ Binary64.fixed 3 (micros e.upper) ++ "]"

def pointLines (pattern : String) (p : Point) : List String :=
  ["Pattern " ++ pattern ++ " (" ++ p.mode.label ++ "): offered load " ++ word32 p.offeredLoad
      ++ " ops/s"]
    ++ (p.latencyRate.map fun rate => "  Latency agents:  " ++ word32 rate ++ " ops/s each").toList
    ++ ["  Sampling:        " ++ Binary64.fixed 4 p.samplingRate ++ "% of operations, "
          ++ word32 p.sampleCount ++ " samples, " ++ word64 p.windowSeconds ++ " s window",
      "  Attempts:        " ++ word32 p.iterations ++ " iterations, " ++ word32 p.retries
          ++ " retries",
      "  Throughput:      " ++ Binary64.fixed 2 p.rates.requests ++ " rps over "
          ++ Text.natural p.totals.agents ++ " agents (" ++ word64 p.rates.completed
          ++ " completed)",
      "  Bandwidth:       rx " ++ Binary64.fixed 2 p.rates.rxBytes ++ " B/s, tx "
          ++ Binary64.fixed 2 p.rates.txBytes ++ " B/s",
      "  Latency (us):    avg " ++ Binary64.fixed 3 (micros p.latency.average),
      "    p50: " ++ estimate p.latency.p50,
      "    p90: " ++ estimate p.latency.p90,
      "    p95: " ++ estimate p.latency.p95,
      "    p99: " ++ estimate p.latency.p99,
      "  Convergence:     " ++ bracketed (p.trailers.convergence.map word32),
      "  IID correlation: " ++ bracketed (p.trailers.correlations.map correlationLayout.text),
      "  IA compliance:   " ++ bracketed (p.trailers.interArrival.map word32)]

def ofOutcome (o : Outcome) : String :=
  if o.points.isEmpty then "Pattern " ++ o.pattern ++ ": no points measured.\n"
  else
    String.intercalate "\n\n"
      (o.points.map fun p => String.intercalate "\n" (pointLines o.pattern p)) ++ "\n"

end Listing
end LoadFleet
