import LoadFleet.Failure
import LoadFleet.Sample.Report
import LoadFleet.Tuning.Basic

/-!
# Accepting measurements

A throughput is accepted within a tenth of the offered rate. Latency samples are accepted when no
agent found them correlated, no agent reported a correlation of exactly zero, and the merged 99th
percentile is known closely enough, asked in this order.
-/

namespace LoadFleet
namespace Acceptance

def greatestCorrelation : Float := 0.25

def throughputInBand (requests : Float) (rate : UInt32) : Bool :=
  let expected := rate.toFloat
  decide (expected * 0.9 ≤ requests) && decide (requests ≤ expected * 1.1)

/-- Judges a latency measurement; the widest interval is given in microseconds. -/
def judge (correlations : List Float) (p99 : Estimate) (widestMicros : UInt64) : Verdict :=
  if correlations.any fun c => decide (greatestCorrelation < c) then .halve
  else if correlations.any fun c => c == 0.0 then .grow .zeroCorrelation
  else if Capped.mul64 widestMicros 1000 < p99.width then .grow .wideInterval
  else .accept

/-- The whole seconds it takes to collect samples from an agent under a load of which a
percentage is sampled. -/
def measurementWindow (sampleCount load : UInt32) (samplingRate : Float) :
    Except ConfigFault Duration :=
  let perSecond := load.toFloat * samplingRate / 100.0
  let noFlow := .error (.noSampleFlow load.toUInt64 samplingRate)
  if perSecond.isNaN || decide (perSecond ≤ 0.0) then noFlow
  else
    match Duration.ofCeiling? (Binary64.ceil? (sampleCount.toFloat / perSecond)) with
    | some window => .ok window
    | none => noFlow

/-- The sampling rate of load and latency agents side by side, where a latency agent carries only
a part of the operations. -/
def latencySamplingRate (loadRate latencyRate : UInt32) (samplingRate : Float) : Float :=
  let total := loadRate.toFloat + latencyRate.toFloat
  if total ≤ 0.0 then 100.0
  else
    let portion := 100.0 * latencyRate.toFloat / total
    if samplingRate < portion then 100.0 * samplingRate / portion else 100.0

end Acceptance
end LoadFleet
