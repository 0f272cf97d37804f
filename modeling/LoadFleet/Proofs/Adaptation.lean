import LoadFleet.Tuning.Acceptance
import Mathlib.Logic.Function.Iterate

/-!
# The parameters of each try

While the throughput has not settled, every try counts as a retry and changes nothing else.  After
that each rejected measurement is a retry that halves the sampling rate or adds samples, so the
parameters of a try follow from the number of probes and the list of verdicts so far.
-/

namespace LoadFleet

namespace Capped

theorem add32_word32 (n : Nat) (b : UInt32) :
    add32 (word32 n) b = word32 (n + b.toNat) := by
  apply UInt32.toNat_inj.mp
  simp only [add32, word32_toNat]
  omega

end Capped

namespace Verdict

def isGrow : Verdict -> Bool
  | .grow _ => true
  | _ => false

def isHalve : Verdict -> Bool
  | .halve => true
  | _ => false

end Verdict

namespace Tuning

def samplesAfter (verdicts : List Verdict) : UInt32 :=
  Capped.word32 (10000 + 10000 * verdicts.countP Verdict.isGrow)

def rateAfter (verdicts : List Verdict) : Float :=
  (fun rate : Float => rate / 2.0)^[verdicts.countP Verdict.isHalve] 20.0

/-- The parameters after a number of probes out of band. -/
def probing (probes : Nat) : Tuning :=
  { initial with
    iterations := Capped.word32 probes
    retries := Capped.word32 probes }

/-- The parameters after a number of probes, of which the last was in band, and after the verdicts
on rejected measurements. -/
def measuring (probes : Nat) (verdicts : List Verdict) : Tuning where
  sampleCount := samplesAfter verdicts
  samplingRate := rateAfter verdicts
  phase := .latency
  iterations := Capped.word32 (probes + verdicts.length)
  retries := Capped.word32 (probes - 1 + verdicts.length)

theorem retry_probing (probes : Nat) :
    (probing probes).beginIteration.retry = probing (probes + 1) := by
  have hone : (1 : UInt32).toNat = 1 := rfl
  simp only [retry, beginIteration, probing, Capped.add32_word32, hone]

theorem acceptThroughput_probing (probes : Nat) :
    (probing probes).beginIteration.acceptThroughput = measuring (probes + 1) [] := by
  have hone : (1 : UInt32).toNat = 1 := rfl
  simp only [acceptThroughput, beginIteration, probing, measuring, Capped.add32_word32, hone,
    List.length_nil, Nat.add_zero, Nat.add_sub_cancel]
  rfl

theorem samplesAfter_grow (verdicts : List Verdict) (reason : GrowReason) :
    samplesAfter (verdicts ++ [.grow reason]) =
      Capped.add32 (samplesAfter verdicts) sampleStep := by
  have hstep : sampleStep.toNat = 10000 := rfl
  simp only [samplesAfter, Capped.add32_word32, hstep, List.countP_append,
    List.countP_singleton, Verdict.isGrow, if_true, Nat.mul_add_one, ← Nat.add_assoc]

theorem rateAfter_halve (verdicts : List Verdict) :
    rateAfter (verdicts ++ [.halve]) = rateAfter verdicts / 2.0 := by
  simp only [rateAfter, List.countP_append, List.countP_singleton, Verdict.isHalve, if_true,
    Function.iterate_succ_apply']

theorem apply_measuring (probes : Nat) (verdicts : List Verdict) {v : Verdict}
    (hv : v ≠ .accept) :
    (measuring probes verdicts).beginIteration.apply v = measuring probes (verdicts ++ [v]) := by
  have hone : (1 : UInt32).toNat = 1 := rfl
  cases v with
  | accept => exact absurd rfl hv
  | halve =>
      simp only [apply, retry, beginIteration, measuring, Capped.add32_word32, hone,
        rateAfter_halve, List.length_append, List.length_singleton, Nat.add_assoc]
      simp [samplesAfter, Verdict.isGrow]
  | grow reason =>
      simp only [apply, retry, beginIteration, measuring, Capped.add32_word32, hone,
        samplesAfter_grow, List.length_append, List.length_singleton, Nat.add_assoc]
      simp [rateAfter, Verdict.isHalve]

end Tuning

namespace Acceptance

/-- A window is defined where samples flow and the time for them fits a duration. -/
theorem measurementWindow_eq_ok {sampleCount load : UInt32} {samplingRate : Float}
    {window : Duration}
    (hflow : ((load.toFloat * samplingRate / 100.0).isNaN ||
      decide (load.toFloat * samplingRate / 100.0 ≤ 0.0)) = false)
    (hspan : Duration.ofCeiling?
      (Binary64.ceil? (sampleCount.toFloat / (load.toFloat * samplingRate / 100.0))) =
        some window) :
    measurementWindow sampleCount load samplingRate = .ok window := by
  simp only [measurementWindow, hflow, hspan]
  rfl

end Acceptance
end LoadFleet
