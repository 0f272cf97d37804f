import LoadFleet.Sample.Merge

/-!
# Measured points

A point describes one measurement: what was offered and sampled, how long was waited, and what the
agents reported. An outcome holds the points of one pattern in the order they were measured.
-/

namespace LoadFleet

/-- Trailer values in the order of the agents; agents without a trailer do not appear. -/
structure Trailers where
  convergence : List UInt32
  correlations : List Float
  interArrival : List UInt32
deriving DecidableEq

namespace Trailers

def ofReports (reports : List LatencyReport) : Trailers :=
  let trailers := reports.filterMap LatencyReport.trailer
  { convergence := trailers.map Trailer.convergence
    correlations := trailers.map Trailer.correlation
    interArrival := trailers.map Trailer.interArrival }

def extend (t : Trailers) (reports : List ThroughputReport) : Trailers :=
  { t with interArrival := t.interArrival ++ reports.filterMap ThroughputReport.interArrival }

end Trailers

inductive Mode where
  | fixed
  | symmetric
  | asymmetric
deriving DecidableEq

def Mode.label : Mode -> String
  | .fixed => "fixed"
  | .symmetric => "symmetric"
  | .asymmetric => "asymmetric"

def Mode.ofLabel? (label : String) : Option Mode :=
  [Mode.fixed, .symmetric, .asymmetric].find? fun mode => mode.label == label

structure Point where
  mode : Mode
  /-- Operations per second offered by all agents together. -/
  offeredLoad : UInt32
  /-- Operations per second of each latency agent, where load agents work beside them. -/
  latencyRate : Option UInt32
  samplingRate : Float
  sampleCount : UInt32
  windowSeconds : UInt64
  iterations : UInt32
  retries : UInt32
  rates : Rates
  totals : Totals
  latency : MergedLatency
  trailers : Trailers
deriving DecidableEq

def Point.window (p : Point) : Duration := Duration.ofSeconds p.windowSeconds

structure Outcome where
  pattern : String
  points : List Point
deriving DecidableEq

end LoadFleet
