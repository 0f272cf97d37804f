import LoadFleet.Proofs.Binary64Arithmetic
import LoadFleet.Tuning.Acceptance

/-!
# When samples flow

A measurement window is defined as long as the samples that are wanted come in within the longest
span of time.  Whether they do is decided by bounds on the exact values that the window is computed
from, as rounding cannot pass a binary64 number.
-/

namespace LoadFleet
namespace Acceptance

open Binary64

theorem hasValue_zeroPercent : HasValue 0.0 0 :=
  ⟨0, -1074, by decide +kernel, by norm_num⟩

theorem hasValue_hundredPercent : HasValue 100.0 100 :=
  ⟨7036874417766400, -46, by decide +kernel, by norm_num⟩

theorem word_le (n : UInt32) : (n.toNat : Rat) ≤ 4294967296 := by
  exact_mod_cast n.toNat_lt.le

section

variable {sampleCount load : UInt32} {rate : Float} {q : Rat}

theorem measurementWindow_error {fault : ConfigFault}
    (h : measurementWindow sampleCount load rate = .error fault) :
    fault = .noSampleFlow load.toUInt64 rate := by
  simp only [measurementWindow] at h
  split at h
  · cases h
    rfl
  · split at h
    · cases h
    · cases h
      rfl

theorem perSecond_value (hrate : HasValue rate q) (hle : load.toNat * q ≤ bound) :
    exists flow perSecond, HasValue (load.toFloat * rate / 100.0) perSecond ∧
      Rounds (load.toNat * q) flow ∧ Rounds (flow / 100) perSecond := by
  rcases (hasValue_word load).mul hrate hle with ⟨flow, hflow, hrounds⟩
  have hflowLe : flow ≤ bound := hrounds.above _ representable_bound hle
  have hpercent : flow / 100 ≤ bound := by
    have := hflow.nonneg
    linarith
  rcases hflow.div hasValue_hundredPercent (by norm_num) hpercent with
    ⟨perSecond, hperSecond, hrounds'⟩
  exact ⟨flow, perSecond, hperSecond, hrounds, hrounds'⟩

theorem measurementWindow_eq {perSecond : Rat}
    (hperSecond : HasValue (load.toFloat * rate / 100.0) perSecond) (hpos : 0 < perSecond)
    (hle : sampleCount.toNat / perSecond ≤ bound) :
    exists seconds, Rounds (sampleCount.toNat / perSecond) seconds ∧
      measurementWindow sampleCount load rate =
        if ⌈seconds⌉₊ < 18446744073709551616 then .ok (.ofSeconds (UInt64.ofNat ⌈seconds⌉₊))
        else .error (.noSampleFlow load.toUInt64 rate) := by
  rcases (hasValue_word sampleCount).div hperSecond hpos hle with ⟨seconds, hseconds, hrounds⟩
  refine ⟨seconds, hrounds, ?_⟩
  have hsome : ¬ load.toFloat * rate / 100.0 ≤ 0.0 := by
    rw [hperSecond.le_iff hasValue_zeroPercent]
    exact not_le.mpr hpos
  simp only [measurementWindow, hperSecond.isNaN_eq_false, decide_eq_false hsome, Bool.or_self,
    Bool.false_eq_true, if_false, hseconds.ceil?_eq, Duration.ofCeiling?]
  by_cases hfits : ⌈seconds⌉₊ < 18446744073709551616
  · simp only [if_pos hfits]
  · simp only [if_neg hfits]

/-- An agent with a load samples at least as much as the percentage of a single operation. -/
theorem le_flow (hload : 1 ≤ load.toNat) (hrate : HasValue rate q) {flow : Rat}
    (hflow : Rounds (load.toNat * q) flow) : q ≤ flow := by
  apply hflow.below q hrate.representable
  have hone : (1 : Rat) ≤ load.toNat := by exact_mod_cast hload
  exact le_mul_of_one_le_left hrate.nonneg hone

/-- Samples flow where `least` of them come in every second and `longest` seconds are enough. -/
theorem measurementWindow_ok {least : Rat} {longest : Nat} (hload : 1 ≤ load.toNat)
    (hrate : HasValue rate q) (hle : load.toNat * q ≤ bound) (hleast : Representable least)
    (hpos : 0 < least) (hpercent : 100 * least ≤ q) (hlongest : Representable longest)
    (hlt : longest < 18446744073709551616) (henough : sampleCount.toNat ≤ least * longest) :
    exists waited, measurementWindow sampleCount load rate = .ok waited := by
  rcases perSecond_value hrate hle with ⟨flow, perSecond, hperSecond, hflow, hrounds⟩
  have hflowGe := le_flow hload hrate hflow
  have hleastLe : least ≤ perSecond := hrounds.below least hleast (by linarith)
  have hperSecondPos : 0 < perSecond := hpos.trans_le hleastLe
  have hseconds : sampleCount.toNat / perSecond ≤ longest := by
    rw [div_le_iff₀ hperSecondPos, mul_comm]
    exact henough.trans (mul_le_mul_of_nonneg_right hleastLe (Nat.cast_nonneg longest))
  have hbound : (longest : Rat) ≤ bound := by
    have hcast : (longest : Rat) ≤ 18446744073709551616 := by exact_mod_cast hlt.le
    unfold bound
    linarith
  rcases measurementWindow_eq hperSecond hperSecondPos (hseconds.trans hbound) with
    ⟨seconds, hround, hwindow⟩
  have hceil : ⌈seconds⌉₊ ≤ longest := Nat.ceil_le.mpr (hround.above _ hlongest hseconds)
  rw [hwindow, if_pos (Nat.lt_of_le_of_lt hceil hlt)]
  exact ⟨_, rfl⟩

theorem measurementWindow_noLoad (hload : load.toNat = 0) (hrate : HasValue rate q) :
    exists fault, measurementWindow sampleCount load rate = .error fault := by
  have hle : load.toNat * q ≤ bound := by
    rw [hload, Nat.cast_zero, zero_mul]
    norm_num [bound]
  rcases perSecond_value hrate hle with ⟨flow, perSecond, hperSecond, hflow, hrounds⟩
  rw [hload, Nat.cast_zero, zero_mul] at hflow
  have hnone : perSecond = 0 := by
    have hflowZero : flow = 0 := hflow.eq_of_representable (representable_natCast (by decide))
    rw [hflowZero, zero_div] at hrounds
    exact hrounds.eq_of_representable (representable_natCast (by decide))
  have hstop : load.toFloat * rate / 100.0 ≤ 0.0 := by
    rw [hperSecond.le_iff hasValue_zeroPercent, hnone]
  simp only [measurementWindow, decide_eq_true hstop, Bool.or_true, if_true]
  exact ⟨_, rfl⟩

/-- At `2 ^ -64` samples in every second even one sample takes too long. -/
theorem measurementWindow_tooLong {perSecond : Rat} (hsamples : 1 ≤ sampleCount.toNat)
    (hperSecond : HasValue (load.toFloat * rate / 100.0) perSecond)
    (hleast : 2 ^ (-147 : Int) ≤ perSecond) (hmost : perSecond ≤ 2 ^ (-64 : Int)) :
    exists fault, measurementWindow sampleCount load rate = .error fault := by
  have hpos : 0 < perSecond := lt_of_lt_of_le (by positivity) hleast
  have hlong : (18446744073709551616 : Rat) ≤ sampleCount.toNat / perSecond := by
    have hone : (1 : Rat) ≤ sampleCount.toNat := by exact_mod_cast hsamples
    rw [le_div_iff₀ hpos]
    norm_num at hmost
    linarith
  have hbound : sampleCount.toNat / perSecond ≤ bound := by
    have hword := word_le sampleCount
    rw [div_le_iff₀ hpos]
    unfold bound
    norm_num at hleast ⊢
    linarith
  rcases measurementWindow_eq hperSecond hpos hbound with ⟨seconds, hround, hwindow⟩
  have hceil : 18446744073709551616 ≤ ⌈seconds⌉₊ := by
    have hge : (18446744073709551616 : Rat) ≤ seconds :=
      hround.below _ ⟨1, 64, by decide, by decide, by norm_num⟩ hlong
    exact_mod_cast hge.trans (Nat.le_ceil seconds)
  rw [hwindow, if_neg (Nat.not_lt.mpr hceil)]
  exact ⟨_, rfl⟩

theorem measurementWindow_refused (hsamples : 1 ≤ sampleCount.toNat) (hrate : HasValue rate q)
    (hleast : 2 ^ (-140 : Int) ≤ q) (hmost : load.toNat * q ≤ 2 ^ (-58 : Int)) :
    exists fault, measurementWindow sampleCount load rate = .error fault := by
  have hle : load.toNat * q ≤ bound := hmost.trans (by norm_num [bound])
  rcases Nat.eq_zero_or_pos load.toNat with hzero | hload
  · exact measurementWindow_noLoad hzero hrate
  · rcases perSecond_value hrate hle with ⟨flow, perSecond, hperSecond, hflow, hrounds⟩
    have hflowGe : 2 ^ (-140 : Int) ≤ flow := hleast.trans (le_flow hload hrate hflow)
    have hflowLe : flow ≤ 2 ^ (-58 : Int) :=
      hflow.above _ (representable_two_pow (by decide)) hmost
    apply measurementWindow_tooLong hsamples hperSecond
    · apply hrounds.below _ (representable_two_pow (by decide))
      norm_num at hflowGe ⊢
      linarith
    · apply hrounds.above _ (representable_two_pow (by decide))
      norm_num at hflowLe ⊢
      linarith

end

/-!
## Sampling rates
-/

theorem hasValue_initial : HasValue Tuning.initialSamplingRate 20 :=
  ⟨5629499534213120, -48, by decide +kernel, by norm_num⟩

theorem hasValue_two : HasValue 2.0 2 :=
  ⟨4503599627370496, -51, by decide +kernel, by norm_num⟩

/-- Halving is exact, as a significand of five is enough for every rate that a half can lead to. -/
theorem hasValue_halved {rate : Float} {k : Nat} (hk : k ≤ 1000)
    (hrate : HasValue rate (20 / 2 ^ k)) : HasValue (rate / 2.0) (20 / 2 ^ (k + 1)) := by
  have hhalf : (20 : Rat) / 2 ^ k / 2 = 20 / 2 ^ (k + 1) := by
    rw [div_div, pow_succ]
  have hrepresentable : Representable (20 / 2 ^ (k + 1)) := by
    refine ⟨5, 2 - ((k + 1 : Nat) : Int), by decide, by omega, ?_⟩
    rw [zpow_sub₀ (by norm_num), zpow_natCast]
    norm_num
    ring
  have hbound : (20 : Rat) / 2 ^ k / 2 ≤ bound := by
    have hone : (1 : Rat) ≤ 2 ^ k := one_le_pow₀ (by norm_num)
    have hle : (20 : Rat) / 2 ^ k ≤ 20 := div_le_self (by norm_num) hone
    unfold bound
    linarith
  rcases hrate.div hasValue_two (by norm_num) hbound with ⟨v, hv, hrounds⟩
  rw [hhalf] at hrounds
  rw [hrounds.eq_of_representable hrepresentable] at hv
  exact hv

/-- A product or sum of words that fits a significand is exact. -/
theorem hasValue_natCast {x : Float} {exact : Rat} {n : Nat} (hn : n < 2 ^ 53) (hexact : exact = n)
    (h : exact ≤ bound -> exists v, HasValue x v ∧ Rounds exact v) : HasValue x n := by
  have hbound : (n : Rat) ≤ bound := by
    have hcast : (n : Rat) ≤ 9007199254740992 := by exact_mod_cast hn.le
    unfold bound
    linarith
  subst hexact
  rcases h hbound with ⟨v, hv, hrounds⟩
  rw [hrounds.eq_of_representable (representable_natCast hn)] at hv
  exact hv

/-- The part of all operations that is the latency agents' own, in percent. -/
theorem portion_value (loadRate : UInt32) {latencyRate : UInt32}
    (hlatency : 0 < latencyRate.toNat) :
    ¬ loadRate.toFloat + latencyRate.toFloat ≤ 0.0 ∧
      exists q,
        HasValue (100.0 * latencyRate.toFloat / (loadRate.toFloat + latencyRate.toFloat)) q ∧
          q ≤ 100 := by
  have hloadLt := loadRate.toNat_lt
  have hlatencyLt := latencyRate.toNat_lt
  have htotal : HasValue (loadRate.toFloat + latencyRate.toFloat)
      ((loadRate.toNat + latencyRate.toNat : Nat) : Rat) :=
    hasValue_natCast (by omega) (Nat.cast_add _ _).symm
      ((hasValue_word loadRate).add (hasValue_word latencyRate))
  have hpart : HasValue (100.0 * latencyRate.toFloat) ((100 * latencyRate.toNat : Nat) : Rat) :=
    hasValue_natCast (by omega) (Nat.cast_mul _ _).symm
      (hasValue_hundredPercent.mul (hasValue_word latencyRate))
  have htotalPos : (0 : Rat) < (loadRate.toNat + latencyRate.toNat : Nat) := by
    exact_mod_cast Nat.add_pos_right _ hlatency
  have hquotient :
      ((100 * latencyRate.toNat : Nat) : Rat) / (loadRate.toNat + latencyRate.toNat : Nat) ≤
        100 := by
    rw [div_le_iff₀ htotalPos]
    exact_mod_cast Nat.mul_le_mul_left 100 (Nat.le_add_left _ _)
  constructor
  · rw [htotal.le_iff hasValue_zeroPercent]
    exact not_le.mpr htotalPos
  · rcases hpart.div htotal htotalPos (hquotient.trans (by norm_num [bound])) with
      ⟨q, hq, hrounds⟩
    exact ⟨q, hq, hrounds.above 100 (representable_natCast (n := 100) (by decide)) hquotient⟩

/-- A rate that yields the initial one on a portion of the operations. -/
theorem corrected_value {portion : Float} {p : Rat} (hportion : HasValue portion p)
    (hleast : 20 < p) (hmost : p ≤ 100) :
    exists q, HasValue (100.0 * Tuning.initialSamplingRate / portion) q ∧ 20 ≤ q ∧ q ≤ 100 := by
  have hdividend : HasValue (100.0 * Tuning.initialSamplingRate) ((2000 : Nat) : Rat) :=
    hasValue_natCast (by decide) (by norm_num) (hasValue_hundredPercent.mul hasValue_initial)
  have hpos : 0 < p := by linarith
  have hbelow : (20 : Rat) ≤ (2000 : Nat) / p := by
    rw [le_div_iff₀ hpos]
    push_cast
    linarith
  have habove : ((2000 : Nat) : Rat) / p ≤ 100 := by
    rw [div_le_iff₀ hpos]
    push_cast
    linarith
  rcases hdividend.div hportion hpos (habove.trans (by norm_num [bound])) with ⟨q, hq, hrounds⟩
  exact ⟨q, hq, hrounds.below 20 (representable_natCast (n := 20) (by decide)) hbelow,
    hrounds.above 100 (representable_natCast (n := 100) (by decide)) habove⟩

/-- Beside load agents the rate lies between the initial one and all operations. -/
theorem latencySamplingRate_value (loadRate : UInt32) {latencyRate : UInt32}
    (hlatency : 0 < latencyRate.toNat) :
    exists q, HasValue (latencySamplingRate loadRate latencyRate Tuning.initialSamplingRate) q ∧
      20 ≤ q ∧ q ≤ 100 := by
  rcases portion_value loadRate hlatency with ⟨hsome, portion, hportion, hmost⟩
  unfold latencySamplingRate
  rw [if_neg hsome]
  by_cases hlarge : Tuning.initialSamplingRate <
      100.0 * latencyRate.toFloat / (loadRate.toFloat + latencyRate.toFloat)
  · rw [if_pos hlarge]
    exact corrected_value hportion ((hasValue_initial.lt_iff hportion).mp hlarge) hmost
  · rw [if_neg hlarge]
    exact ⟨100, hasValue_hundredPercent, by norm_num, le_refl 100⟩

end Acceptance
end LoadFleet
