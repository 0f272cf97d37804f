import LoadFleet.Proofs.Adaptation
import Mathlib.Data.List.Induction

/-!
# Parameters after any history

The parameters take four kinds of step, which may come in any order and number.  All of them but the
phase follow from how many steps of each kind there were, since capped counts and halved rates do
not remember when a step was taken; the phase is the last one that was set.
-/

namespace LoadFleet

namespace Capped

theorem word32_of_toNat (w : UInt32) : word32 w.toNat = w := by
  apply UInt32.toNat_inj.mp
  rw [word32_toNat]
  exact Nat.min_eq_left (Nat.le_of_lt_succ w.toNat_lt)

theorem le_word32_add (w : UInt32) (n : Nat) : w ≤ word32 (w.toNat + n) := by
  rw [UInt32.le_iff_toNat_le, word32_toNat]
  exact Nat.le_min.mpr ⟨Nat.le_add_right _ n, Nat.le_of_lt_succ w.toNat_lt⟩

end Capped

namespace Tuning

inductive Step where
  | beginIteration
  | acceptThroughput
  | retry
  | apply (verdict : Verdict)
deriving DecidableEq

namespace Step

def take (t : Tuning) : Step -> Tuning
  | .beginIteration => t.beginIteration
  | .acceptThroughput => t.acceptThroughput
  | .retry => t.retry
  | .apply verdict => t.apply verdict

@[simp]
def isIteration : Step -> Bool
  | .beginIteration => true
  | _ => false

@[simp]
def isGrow : Step -> Bool
  | .apply verdict => verdict.isGrow
  | _ => false

@[simp]
def isHalve : Step -> Bool
  | .apply verdict => verdict.isHalve
  | _ => false

/-- Whether a step counts as a retry: a retry as such, or a verdict that rejects a measurement. -/
@[simp]
def isRetry : Step -> Bool
  | .retry => true
  | .apply verdict => verdict.isHalve || verdict.isGrow
  | _ => false

/-- The phase that a step sets. -/
@[simp]
def phase? : Step -> Option Phase
  | .acceptThroughput => some .latency
  | .apply .accept => some .exit
  | _ => none

end Step

def after (t : Tuning) (steps : List Step) : Tuning :=
  steps.foldl Step.take t

/-- The parameters that follow from the number of steps of each kind and the last phase set. -/
def counted (t : Tuning) (steps : List Step) : Tuning where
  sampleCount := Capped.word32 (t.sampleCount.toNat + 10000 * steps.countP Step.isGrow)
  samplingRate := (fun rate : Float => rate / 2.0)^[steps.countP Step.isHalve] t.samplingRate
  phase := (steps.filterMap Step.phase?).getLast?.getD t.phase
  iterations := Capped.word32 (t.iterations.toNat + steps.countP Step.isIteration)
  retries := Capped.word32 (t.retries.toNat + steps.countP Step.isRetry)

/-!
## Counting steps
-/

theorem after_append (t : Tuning) (steps later : List Step) :
    t.after (steps ++ later) = (t.after steps).after later :=
  List.foldl_append

theorem after_concat (t : Tuning) (steps : List Step) (step : Step) :
    t.after (steps ++ [step]) = step.take (t.after steps) :=
  after_append t steps [step]

theorem counted_nil (t : Tuning) : t.counted [] = t := by
  simp [counted, Capped.word32_of_toNat]

/-- One more step is one more count, or one more phase that was set. -/
theorem take_counted (t : Tuning) (steps : List Step) (step : Step) :
    step.take (t.counted steps) = t.counted (steps ++ [step]) := by
  have hone : (1 : UInt32).toNat = 1 := rfl
  have hsamples : sampleStep.toNat = 10000 := rfl
  simp only [counted, List.countP_append, List.countP_singleton, List.filterMap_append]
  cases step with
  | beginIteration =>
      simp [Step.take, beginIteration, Capped.add32_word32, hone, Nat.add_assoc]
  | acceptThroughput =>
      simp [Step.take, acceptThroughput]
  | retry =>
      simp [Step.take, retry, Capped.add32_word32, hone, Nat.add_assoc]
  | apply verdict =>
      cases verdict with
      | halve =>
          simp [Step.take, apply, retry, Capped.add32_word32, hone, Nat.add_assoc,
            Function.iterate_succ_apply', Verdict.isHalve, Verdict.isGrow]
      | grow reason =>
          simp [Step.take, apply, retry, Capped.add32_word32, hone, hsamples, Nat.add_assoc,
            Nat.mul_add, Verdict.isHalve, Verdict.isGrow]
      | accept =>
          simp [Step.take, apply, Verdict.isHalve, Verdict.isGrow]

/-- Any history comes to what is counted in it. -/
theorem after_eq_counted (t : Tuning) (steps : List Step) : t.after steps = t.counted steps := by
  -- By induction on the history from its end, where the last step was taken.
  induction steps using List.reverseRecOn with
  | nil => exact (counted_nil t).symm
  | append_singleton steps step ih => rw [after_concat, ih, take_counted]

/-- Counts do not see an order, so only the phase can depend on it. -/
theorem counted_perm (t : Tuning) {steps others : List Step} (h : steps.Perm others) :
    { t.counted others with phase := (t.counted steps).phase } = t.counted steps := by
  simp only [counted, h.countP_eq]

/-!
## Histories
-/

/-- The parameters after any history are its counts, capped once at the end.  So neither the samples
nor the two counters ever fall, and the same steps in another order differ in the phase at most. -/
theorem parameters_after_history (t : Tuning) (steps : List Step) :
    let final := t.after steps
    final.iterations.toNat =
        min (t.iterations.toNat + steps.countP Step.isIteration) 4294967295 ∧
      final.retries.toNat = min (t.retries.toNat + steps.countP Step.isRetry) 4294967295 ∧
      final.sampleCount.toNat =
        min (t.sampleCount.toNat + 10000 * steps.countP Step.isGrow) 4294967295 ∧
      final.samplingRate =
        (fun rate : Float => rate / 2.0)^[steps.countP Step.isHalve] t.samplingRate ∧
      final.phase = (steps.filterMap Step.phase?).getLast?.getD t.phase ∧
      (forall later, final.sampleCount ≤ (t.after (steps ++ later)).sampleCount ∧
        final.iterations ≤ (t.after (steps ++ later)).iterations ∧
        final.retries ≤ (t.after (steps ++ later)).retries) ∧
      forall others, steps.Perm others ->
        { t.after others with phase := final.phase } = final := by
  intro final
  have hfinal : final = t.counted steps := after_eq_counted t steps
  have hlater (later : List Step) : t.after (steps ++ later) = final.counted later := by
    rw [after_append, after_eq_counted]
  refine ⟨?iterations, ?retries, ?samples, ?rate, ?phase, ?growing, ?reordered⟩
  case iterations => rw [hfinal, counted, Capped.word32_toNat]
  case retries => rw [hfinal, counted, Capped.word32_toNat]
  case samples => rw [hfinal, counted, Capped.word32_toNat]
  case rate => rw [hfinal, counted]
  case phase => rw [hfinal, counted]
  case growing =>
    intro later
    rw [hlater]
    exact ⟨Capped.le_word32_add _ _, Capped.le_word32_add _ _, Capped.le_word32_add _ _⟩
  case reordered =>
    intro others hperm
    rw [hfinal, after_eq_counted]
    exact counted_perm t hperm

/-- Near the caps an accepted throughput, two verdicts for more samples and one for a lower rate
come to the same counts in reverse, but leave another phase behind. -/
theorem parameters_after_history_reversed :
    let t : Tuning := ⟨4294960000, 20.0, .throughput, 4294967295, 4294967294⟩
    let steps : List Step := [.beginIteration, .acceptThroughput, .apply (.grow .wideInterval),
      .apply .halve, .apply (.grow .zeroCorrelation), .apply .accept]
    steps.Perm steps.reverse ∧
      t.after steps = ⟨4294967295, 10.0, .exit, 4294967295, 4294967295⟩ ∧
      t.after steps.reverse = ⟨4294967295, 10.0, .latency, 4294967295, 4294967295⟩ ∧
      { t.after steps.reverse with phase := (t.after steps).phase } = t.after steps := by
  intro t steps
  have hperm : steps.Perm steps.reverse := steps.reverse_perm.symm
  rcases parameters_after_history t steps with ⟨-, -, -, -, -, -, hreordered⟩
  exact ⟨hperm, by decide +kernel, by decide +kernel, hreordered steps.reverse hperm⟩

end Tuning
end LoadFleet
