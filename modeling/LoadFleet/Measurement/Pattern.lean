import LoadFleet.Measurement.Asymmetric
import LoadFleet.Measurement.Fixed
import LoadFleet.Pattern.Requirements

/-!
# The procedure of a load pattern

A pattern first makes sure that the fleet has the agents it needs. Every measurement starts from
the initial parameters, so no point depends on an earlier one.
-/

namespace LoadFleet

structure MeasurementSettings where
  /-- Operations per second of each latency agent. -/
  latencyRate : UInt32
  /-- The widest interval of the 99th percentile that is accepted, in microseconds. -/
  widestMicros : UInt64
  maxTries : UInt32
deriving DecidableEq

def MeasurementSettings.standard : MeasurementSettings := ⟨16000, 5, 20⟩

namespace Pattern

/-- The sampling rates of a correlation sweep, in percent. -/
def sweepRates : List Float := [0.01, 0.05, 0.1, 0.5, 1.0]

def single (measurement : Procedure (Except Failure Point)) :
    Procedure (Except Failure (List Point)) := do
  match ← measurement with
  | .error failure => return .error failure
  | .ok point => return .ok [point]

def points (count : Group -> Nat) (settings : MeasurementSettings) :
    Pattern -> Procedure (Except Failure (List Point))
  | .fixed rate =>
      single (Measurement.fixed (count .symmetric) rate settings.widestMicros settings.maxTries
        .initial)
  | .step start stop stride =>
      .each (fun load => Measurement.asymmetric (count .throughput) load settings.latencyRate
        .initial) (stepLoads start stop stride)
  | .test rate samples =>
      let tuning := { Tuning.initial with sampleCount := samples }
      if 0 < count .symmetric then
        single (Measurement.symmetric (count .symmetric) rate tuning)
      else
        single (Measurement.asymmetric (count .throughput) rate settings.latencyRate tuning)
  | .corr rate samples =>
      .each (fun samplingRate => Measurement.symmetric (count .symmetric) rate
        { Tuning.initial with sampleCount := samples, samplingRate }) sweepRates

def procedure (count : Group -> Nat) (settings : MeasurementSettings) (p : Pattern) :
    Procedure (Except Failure Outcome) := do
  match (p.ensureAgents count).mapError Failure.config with
  | .error failure => return .error failure
  | .ok _ =>
  match ← p.points count settings with
  | .error failure => return .error failure
  | .ok points =>
  return .ok { pattern := p.text, points }

end Pattern
end LoadFleet
