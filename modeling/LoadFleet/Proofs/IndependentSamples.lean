import LoadFleet.Proofs.Provenance
import LoadFleet.Proofs.Verdicts

/-!
# Samples that are accepted

A fixed pattern ends in a point only after its last measurement passed every test: no correlation
lies above the threshold, none is zero, and the merged percentile is known closely enough.  A number
that passes the first two tests is a correlation of independent samples, while what is no number at
all passes them as well, for it is neither above the threshold nor equal to zero.
-/

namespace LoadFleet

/-!
## Verdicts
-/

namespace Acceptance

theorem width_le_of_capped {width widestMicros : UInt64}
    (h : width ≤ Capped.mul64 widestMicros 1000) :
    width.toNat ≤ widestMicros.toNat * 1000 := by
  apply Nat.le_of_not_lt
  intro hwider
  exact UInt64.not_lt.mpr h ((Capped.word64_lt_iff _ _).mpr hwider)

/-- What speaks for independent samples, as far as a correlation is a number. -/
theorem independent_of_judged {c : Float} (hlarge : ¬ greatestCorrelation < c)
    (hzero : (c == 0.0) = false) : c.isNaN = true ∨ c ≤ 0.25 ∧ (c == 0.0) = false := by
  cases hnumber : c.isNaN with
  | true => exact .inl rfl
  | false => exact .inr ⟨Binary64.le_of_not_lt hnumber (by decide +kernel) hlarge, hzero⟩

end Acceptance

/-!
## Runs
-/

open Procedure (Course)

namespace Measurement

variable {entries : List Procedure.Entry} {point : Point}

/-- A point of a fixed rate was judged by the very numbers that it reports. -/
theorem judged_fixed {agents : Nat} {rate : UInt32} {widestMicros : UInt64} {maxTries : UInt32}
    (h : Course (fixed agents rate widestMicros maxTries .initial) entries (.ok point)) :
    Acceptance.judge point.trailers.correlations point.latency.p99 widestMicros = .accept := by
  rcases course_fixed h with ⟨rest, rfl, hattempts⟩
  have hending := FixedSetting.course_attempts FixedSetting.lasting_unfinished hattempts nofun
  generalize hresult : Except.ok point = result at hending
  cases hending with
  | accepted before hlast hphase hwindow haccept =>
      cases hresult
      exact haccept
  | refused before hlast hphase hwindow => cases hresult
  | usedUp rest last => cases hresult

end Measurement

namespace Pattern

variable {count : Group -> Nat} {settings : MeasurementSettings}
  {entries : List Procedure.Entry}

/-- A fixed pattern that comes to an outcome has one point.  Each of its correlations that is a
number is at most a quarter and not zero, and the merged percentile is known as closely as was asked
for. -/
theorem fixed_point_judged
    (answer : (request : Request) -> σ -> Except Failure request.Answer × σ) (fleet : σ)
    (count : Group -> Nat) (settings : MeasurementSettings) (rate : UInt32) (outcome : Outcome) :
    let run := ((Pattern.fixed rate).procedure count settings).run answer fleet
    run.result = .ok outcome ->
      exists point, outcome.points = [point] ∧
        (forall c, c ∈ point.trailers.correlations ->
          c.isNaN = true ∨ c ≤ 0.25 ∧ (c == 0.0) = false) ∧
        point.latency.p99.width.toNat ≤ settings.widestMicros.toNat * 1000 := by
  intro run hresult
  rcases Procedure.run_course_ok answer (strict_procedure _ _ _) hresult with ⟨hcourse, -⟩
  rcases course_procedure hcourse with
    ⟨points, -, hpoints, houtcome⟩ | ⟨failure, -, -, hfailed⟩ | ⟨fault, -, -, hfailed⟩
  · cases houtcome
    rcases ok_of_single hpoints with ⟨point, hsingle, hpoint⟩
    rcases Acceptance.judge_eq_accept (Measurement.judged_fixed hpoint) with
      ⟨hcorrelations, hwidth⟩
    refine ⟨point, hsingle, ?_, Acceptance.width_le_of_capped hwidth⟩
    intro c hc
    rcases hcorrelations c hc with ⟨hlarge, hzero⟩
    exact Acceptance.independent_of_judged hlarge hzero
  · cases hfailed
  · cases hfailed

theorem fixed_point_judged_settling :
    let run := ((Pattern.fixed 1000).procedure (fun _ => 2) .standard).run settling.answer .start
    exists outcome, run.result = .ok outcome ∧
      exists point, outcome.points = [point] ∧
        (forall c, c ∈ point.trailers.correlations ->
          c.isNaN = true ∨ c ≤ 0.25 ∧ (c == 0.0) = false) ∧
        point.latency.p99.width.toNat ≤ 5000 := by
  intro run
  have hok : run.result.toOption.isSome = true := by decide +kernel
  cases hresult : run.result with
  | ok outcome =>
      exact ⟨outcome, rfl,
        fixed_point_judged settling.answer .start (fun _ => 2) .standard 1000 outcome hresult⟩
  | error failure =>
      rw [hresult] at hok
      cases hok

/-- One agent at exactly the offered rate, whose samples have no number for their correlation. -/
def unnumbered : Script where
  throughput _ := [⟨⟨0, 0, 1000, 0⟩, none⟩]
  latency _ := [⟨⟨⟨0, 0, 1000, 0⟩, 0, ⟨0, 0, 0⟩, ⟨0, 0, 0⟩, ⟨0, 0, 0⟩, ⟨0, 0, 0⟩⟩,
    some ⟨1, Float.ofBits 0x7FF8000000000000, 1⟩⟩]
  failing := none

/-- A correlation that is no number is accepted at the first measurement, although it is not at most
a quarter. -/
theorem fixed_accepts_unnumbered :
    let run :=
      ((Pattern.fixed 1000).procedure (fun _ => 1) ⟨16000, 5, 2⟩).run unnumbered.answer .start
    let nan := Float.ofBits 0x7FF8000000000000
    (run.result.toOption.map fun outcome =>
        outcome.points.map fun point => point.trailers.correlations) = some [[nan]] ∧
      ¬ nan ≤ 0.25 := by
  intro run nan
  constructor
  · decide +kernel
  · decide +kernel

end Pattern
end LoadFleet
