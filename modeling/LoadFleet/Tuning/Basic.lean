import LoadFleet.Capped

/-!
# The adaptive parameters of an experiment

A fixed pattern first waits for the throughput to settle and then for latency samples that can be
accepted. Until then the sampling rate, which is in percent, only ever halves and the count of
samples only ever grows: the rate where samples depend on each other, the count where an agent found
no correlation at all or the interval of the merged 99th percentile is too wide.
-/

namespace LoadFleet

inductive Phase where
  | throughput
  | latency
  | exit
deriving DecidableEq

def Phase.label : Phase -> String
  | .throughput => "wait-for-throughput"
  | .latency => "wait-for-latency"
  | .exit => "exit"

inductive GrowReason where
  | zeroCorrelation
  | wideInterval
deriving DecidableEq

inductive Verdict where
  | halve
  | grow (reason : GrowReason)
  | accept
deriving DecidableEq

structure Tuning where
  sampleCount : UInt32
  samplingRate : Float
  phase : Phase
  iterations : UInt32
  retries : UInt32
deriving DecidableEq

namespace Tuning

def initialSampleCount : UInt32 := 10000

def sampleStep : UInt32 := 10000

def initialSamplingRate : Float := 20.0

def initial : Tuning := ⟨initialSampleCount, initialSamplingRate, .throughput, 0, 0⟩

def beginIteration (t : Tuning) : Tuning := { t with iterations := Capped.add32 t.iterations 1 }

def acceptThroughput (t : Tuning) : Tuning := { t with phase := .latency }

def retry (t : Tuning) : Tuning := { t with retries := Capped.add32 t.retries 1 }

def apply (t : Tuning) : Verdict -> Tuning
  | .halve => { t.retry with samplingRate := t.samplingRate / 2.0 }
  | .grow _ => { t.retry with sampleCount := Capped.add32 t.sampleCount sampleStep }
  | .accept => { t with phase := .exit }

end Tuning
end LoadFleet
