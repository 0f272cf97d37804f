import LoadFleet.Proofs.Binary64Comparison
import LoadFleet.Tuning.Acceptance

/-!
# Verdicts on latency measurements

The tests of a measurement are asked in a fixed order, and the first that fails decides.  The order
of the correlations plays no part in it, nor do correlations that fail no test.  The capped product
and the capped difference that are compared last decide as exact numbers do.
-/

namespace LoadFleet
namespace Acceptance

def Correlated (correlations : List Float) : Prop :=
  exists c, c ∈ correlations ∧ 0.25 < c

def Unconverged (correlations : List Float) : Prop :=
  exists c, c ∈ correlations ∧ (c.toBits = 0 ∨ c.toBits = 0x8000000000000000)

/-- The bounds are in order and further apart than a number of microseconds, without any cap. -/
def Wide (p99 : Estimate) (widestMicros : UInt64) : Prop :=
  p99.lower.toNat < p99.upper.toNat ∧
    widestMicros.toNat * 1000 < p99.upper.toNat - p99.lower.toNat

instance (p99 : Estimate) (widestMicros : UInt64) : Decidable (Wide p99 widestMicros) :=
  inferInstanceAs (Decidable (_ ∧ _))

/-- A correlation that fails no test: no number at all, a negative one, or a small positive one. -/
def Harmless (c : Float) : Prop :=
  c.isNaN = true ∨ c < 0.0 ∨ 0.0 < c ∧ c ≤ 0.25

instance (c : Float) : Decidable (Harmless c) :=
  inferInstanceAs (Decidable (_ ∨ _))

variable {correlations others : List Float}

/-!
## The tests one by one
-/

theorem any_large_iff :
    (correlations.any fun c => decide (greatestCorrelation < c)) = true <->
      Correlated correlations := by
  simp only [List.any_eq_true, decide_eq_true_eq]
  rfl

theorem any_zero_iff :
    (correlations.any fun c => c == 0.0) = true <-> Unconverged correlations := by
  simp only [List.any_eq_true, Binary64.beq_zero_iff]
  rfl

/-- The product is capped at the greatest word, and no width exceeds that. -/
theorem wider_iff (p99 : Estimate) (widestMicros : UInt64) :
    Capped.mul64 widestMicros 1000 < p99.width <-> Wide p99 widestMicros := by
  have hthousand : (1000 : UInt64).toNat = 1000 := rfl
  rw [Capped.mul64, Capped.word64_lt_iff, Estimate.width, Capped.sub64_toNat, hthousand]
  unfold Wide
  omega

theorem Harmless.not_large {c : Float} (h : Harmless c) : ¬ greatestCorrelation < c := by
  rcases h with hnan | hnegative | ⟨-, hsmall⟩
  · exact Binary64.not_lt_of_isNaN hnan
  · exact Binary64.not_lt_of_negative hnegative (by decide +kernel)
  · exact Binary64.not_lt_of_le hsmall

theorem Harmless.not_zero {c : Float} (h : Harmless c) : (c == 0.0) = false := by
  rcases h with hnan | hnegative | ⟨hpositive, -⟩
  · exact Binary64.beq_eq_false_of_isNaN hnan
  · exact Binary64.beq_eq_false_of_lt hnegative
  · exact Binary64.beq_eq_false_of_gt hpositive

/-!
## The first test that fails
-/

theorem judge_correlated (h : Correlated correlations) (p99 : Estimate) (widestMicros : UInt64) :
    judge correlations p99 widestMicros = .halve :=
  if_pos (any_large_iff.mpr h)

theorem judge_uncorrelated (h : ¬ Correlated correlations) (p99 : Estimate)
    (widestMicros : UInt64) :
    judge correlations p99 widestMicros =
      if correlations.any fun c => c == 0.0 then .grow .zeroCorrelation
      else if Capped.mul64 widestMicros 1000 < p99.width then .grow .wideInterval
      else .accept :=
  if_neg fun hlarge => h (any_large_iff.mp hlarge)

theorem judge_unconverged (h : ¬ Correlated correlations) (hzero : Unconverged correlations)
    (p99 : Estimate) (widestMicros : UInt64) :
    judge correlations p99 widestMicros = .grow .zeroCorrelation := by
  rw [judge_uncorrelated h]
  exact if_pos (any_zero_iff.mpr hzero)

theorem judge_converged (h : ¬ Correlated correlations) (hzero : ¬ Unconverged correlations)
    (p99 : Estimate) (widestMicros : UInt64) :
    judge correlations p99 widestMicros =
      if Capped.mul64 widestMicros 1000 < p99.width then .grow .wideInterval else .accept := by
  rw [judge_uncorrelated h]
  exact if_neg fun hany => hzero (any_zero_iff.mp hany)

/-- Where no correlation speaks against the samples, the width of the interval decides, compared as
if no product were ever capped. -/
theorem judge_independent (h : forall c, c ∈ correlations -> ¬ 0.25 < c ∧ (c == 0.0) = false)
    (p99 : Estimate) (widestMicros : UInt64) :
    judge correlations p99 widestMicros =
      if widestMicros.toNat * 1000 < p99.width.toNat then .grow .wideInterval else .accept := by
  have hlarge : ¬ Correlated correlations := by
    intro hsome
    rcases hsome with ⟨c, hc, hlt⟩
    exact (h c hc).left hlt
  have hzero : ¬ Unconverged correlations := by
    intro hsome
    rcases hsome with ⟨c, hc, hbits⟩
    exact Bool.eq_false_iff.mp (h c hc).right (Binary64.beq_zero_iff.mpr hbits)
  rw [judge_converged hlarge hzero]
  exact if_congr (Capped.word64_lt_iff _ _) rfl rfl

theorem judge_eq_accept {p99 : Estimate} {widestMicros : UInt64}
    (h : judge correlations p99 widestMicros = .accept) :
    (forall c, c ∈ correlations -> ¬ greatestCorrelation < c ∧ (c == 0.0) = false) ∧
      p99.width ≤ Capped.mul64 widestMicros 1000 := by
  have hlarge : ¬ Correlated correlations := by
    intro hsome
    rw [judge_correlated hsome] at h
    cases h
  have hzero : ¬ Unconverged correlations := by
    intro hsome
    rw [judge_unconverged hlarge hsome] at h
    cases h
  have hclose : ¬ Capped.mul64 widestMicros 1000 < p99.width := by
    intro hwide
    rw [judge_converged hlarge hzero, if_pos hwide] at h
    cases h
  refine ⟨?_, UInt64.not_lt.mp hclose⟩
  intro c hc
  constructor
  · exact fun hlt => hlarge ⟨c, hc, hlt⟩
  · exact Bool.eq_false_iff.mpr fun heq => hzero ⟨c, hc, Binary64.beq_zero_iff.mp heq⟩

/-!
## Correlations that play no part
-/

theorem judge_perm (h : correlations.Perm others) (p99 : Estimate) (widestMicros : UInt64) :
    judge correlations p99 widestMicros = judge others p99 widestMicros := by
  unfold judge
  simp only [h.any_eq]

theorem judge_append_harmless {harmless : List Float} (h : forall c, c ∈ harmless -> Harmless c)
    (p99 : Estimate) (widestMicros : UInt64) :
    judge (correlations ++ harmless) p99 widestMicros = judge correlations p99 widestMicros := by
  have hlarge : (harmless.any fun c => decide (greatestCorrelation < c)) = false := by
    rw [List.any_eq_false]
    intro c hc hlt
    exact (h c hc).not_large (of_decide_eq_true hlt)
  have hzero : (harmless.any fun c => c == 0.0) = false := by
    rw [List.any_eq_false]
    intro c hc heq
    exact Bool.eq_false_iff.mp (h c hc).not_zero heq
  unfold judge
  simp only [List.any_append, hlarge, hzero, Bool.or_false]

/-!
## The decision
-/

/-- The verdict is that of the first test that fails, in the order of the tests.  Neither the order
of the correlations nor harmless ones among them change it. -/
theorem verdict_by_priority (correlations : List Float) (p99 : Estimate) (widestMicros : UInt64) :
    let verdict := judge correlations p99 widestMicros
    (verdict = .halve <-> Correlated correlations) ∧
      (verdict = .grow .zeroCorrelation <->
        ¬ Correlated correlations ∧ Unconverged correlations) ∧
      (verdict = .grow .wideInterval <->
        ¬ Correlated correlations ∧ ¬ Unconverged correlations ∧ Wide p99 widestMicros) ∧
      (verdict = .accept <->
        ¬ Correlated correlations ∧ ¬ Unconverged correlations ∧ ¬ Wide p99 widestMicros) ∧
      forall harmless others, (forall c, c ∈ harmless -> Harmless c) ->
        others.Perm (correlations ++ harmless) -> judge others p99 widestMicros = verdict := by
  intro verdict
  have hunchanged (harmless others : List Float) (hharmless : forall c, c ∈ harmless -> Harmless c)
      (hperm : others.Perm (correlations ++ harmless)) :
      judge others p99 widestMicros = verdict := by
    rw [judge_perm hperm]
    exact judge_append_harmless hharmless p99 widestMicros
  simp only [← and_assoc]
  refine ⟨?_, hunchanged⟩
  by_cases hlarge : Correlated correlations
  · have hverdict : verdict = .halve := judge_correlated hlarge _ _
    simp [hverdict, hlarge]
  · by_cases hzero : Unconverged correlations
    · have hverdict : verdict = .grow .zeroCorrelation := judge_unconverged hlarge hzero _ _
      simp [hverdict, hlarge, hzero]
    · have hconverged : verdict = _ := judge_converged hlarge hzero _ _
      rw [hconverged, if_congr (wider_iff p99 widestMicros) rfl rfl]
      by_cases hwide : Wide p99 widestMicros
      · simp [hlarge, hzero, hwide]
      · simp [hlarge, hzero, hwide]

/-- A zero among what is no number, below zero or small still asks for more samples, and without the
zero an interval is accepted up to a bound whose product would not fit a word. -/
theorem verdict_by_priority_harmless :
    let harmless : List Float := [Float.ofBits 0x7FF8000000000000, -0.5, 0.25]
    let p99 : Estimate := ⟨0, 0, 18446744073709551615⟩
    (forall c, c ∈ harmless -> Harmless c) ∧
      judge (harmless ++ [-0.0]) p99 18446744073709552 = .grow .zeroCorrelation ∧
      judge (harmless ++ [0.125]) p99 18446744073709552 = .accept ∧
      judge (harmless ++ [0.125]) p99 18446744073709551 = .grow .wideInterval := by
  intro harmless p99
  have hharmless : forall c, c ∈ harmless -> Harmless c := by decide +kernel
  have hjudge (c : Float) (widestMicros : UInt64) :
      judge (harmless ++ [c]) p99 widestMicros = judge [c] p99 widestMicros := by
    rcases verdict_by_priority [c] p99 widestMicros with ⟨-, -, -, -, hunchanged⟩
    exact hunchanged harmless _ hharmless List.perm_append_comm
  refine ⟨hharmless, ?_, ?_, ?_⟩
  · rw [hjudge]
    decide +kernel
  · rw [hjudge]
    decide +kernel
  · rw [hjudge]
    decide +kernel

end Acceptance
end LoadFleet
