import LoadFleet.Proofs.SamplingRates

/-!
# Runs that end in a configuration failure

Once settings are resolved, the agents of the pattern are there.  All that may still be refused is a
measurement window, which is computed after the agents were told to measure, and only for symmetric
agents: where their share of the load is nothing, or after far more halvings of a sampling rate than
the standard number of tries allows.
-/

namespace LoadFleet

open Procedure (Event Entry Course)
open Binary64

/-!
## Windows that are never refused
-/

namespace Acceptance

/-- From a sampling rate of `0.01` percent on, an agent with a load has a window for any number of
samples. -/
theorem measurementWindow_ok_of_percent {sampleCount load : UInt32} {rate : Float} {q : Rat}
    (hload : 1 ≤ load.toNat) (hrate : HasValue rate q) (hleast : 100 * 2 ^ (-14 : Int) ≤ q)
    (hmost : q ≤ 100) : exists waited, measurementWindow sampleCount load rate = .ok waited := by
  have hword := word_le load
  have hbound : load.toNat * q ≤ bound := by
    have hprod : (load.toNat : Rat) * q ≤ 4294967296 * 100 :=
      mul_le_mul hword hmost hrate.nonneg (by norm_num)
    exact hprod.trans (by norm_num [bound])
  have hlongest : Representable ((70368744177664 : Nat) : Rat) := representable_natCast (by decide)
  apply measurementWindow_ok hload hrate hbound (representable_two_pow (n := -14) (by decide))
    (by positivity) hleast hlongest (by decide)
  refine (word_le sampleCount).trans ?_
  norm_num

end Acceptance

namespace Measurement

theorem rate_lt_of_share {rate : UInt32} {agents : Nat} (hagents : agents ≠ 0)
    (h : (share rate agents).toNat = 0) : rate.toNat < agents := by
  unfold share at h
  rw [UInt32.toNat_div] at h
  have hlt := Nat.lt_of_div_eq_zero (agentWord_pos hagents) h
  exact Nat.lt_of_lt_of_le hlt (agentWord_le agents)

namespace FixedSetting

variable {s : FixedSetting} {t : Tuning}

/-- A measurement after fewer than `49` rejected ones has a window. -/
theorem windowOf_ok {k : Nat} (hagents : s.agents ≠ 0) (hload : 1 ≤ s.load.toNat)
    (ht : t.Halved k) (hk : k ≤ 48) (hsamples : t.sampleCount.toNat * 2 ^ k ≤ 10000 * 2 ^ 48) :
    exists window, s.windowOf t = .ok window := by
  rcases samplingRate_value (s := s) ht with ⟨q, hq, hrounds⟩
  have hpos : (0 : Rat) < 2 ^ k := by positivity
  have hone : (1 : Rat) ≤ 2 ^ k := one_le_pow₀ (by norm_num)
  -- A binary number a little below the common rate over a hundred keeps the bounds exact.
  have hleast : Representable (25 / 128 / 2 ^ k) := by
    refine ⟨25, -7 - (k : Int), by decide, by omega, ?_⟩
    rw [zpow_sub₀ (by norm_num), zpow_natCast]
    norm_num
    ring
  have hbound : s.load.toNat * q ≤ bound := by
    have hword := Acceptance.word_le (agentWord s.agents)
    have hload := Acceptance.word_le s.load
    have hrate : q ≤ 2 ^ (37 : Int) := by
      apply hrounds.above _ (representable_two_pow (by decide))
      have hcommon : (20 : Rat) / 2 ^ k ≤ 20 := div_le_self (by norm_num) hone
      refine (mul_le_mul hword hcommon (by positivity) (by norm_num)).trans ?_
      norm_num
    exact (mul_le_mul hload hrate hq.nonneg (by norm_num)).trans (by norm_num [bound])
  have hlongest : Representable ((51200 * 2 ^ 48 : Nat) : Rat) :=
    ⟨51200, 48, by decide, by decide, by norm_num⟩
  apply Acceptance.measurementWindow_ok hload hq hbound hleast (by positivity) ?_ hlongest
    (by decide)
  · rw [div_mul_eq_mul_div, le_div_iff₀ hpos]
    have hcast : (t.sampleCount.toNat : Rat) * 2 ^ k ≤ 10000 * 2 ^ 48 := by exact_mod_cast hsamples
    norm_num at hcast ⊢
    linarith
  · apply le_trans ?_ (le_samplingRate hagents ht hrounds)
    rw [mul_div_assoc', div_le_div_iff_of_pos_right hpos]
    norm_num

/-- Few rejections so far: with the tries that are left there are at most fifty in all, the first of
which is a probe. -/
structure Early (tries : Nat) (t : Tuning) : Prop where
  unfinished : t.phase ≠ .exit
  probing : t.phase = .throughput -> tries ≤ 50 ∧ t.Halved 0 ∧ t.sampleCount.toNat = 10000
  measuring : t.phase = .latency -> exists halvings growths,
    halvings + growths + tries ≤ 49 ∧ t.Halved halvings ∧
      t.sampleCount.toNat ≤ 10000 * (growths + 1)

theorem early_initial {tries : Nat} (h : tries ≤ 50) : Early tries .initial where
  unfinished := nofun
  probing := fun _ => ⟨h, Tuning.halved_initial, rfl⟩
  measuring := nofun

theorem Early.windowOf_ok {tries : Nat} (hearly : Early (tries + 1) t) (hphase : t.phase = .latency)
    (hagents : s.agents ≠ 0) (hload : 1 ≤ s.load.toNat) :
    exists window, s.windowOf t.beginIteration = .ok window := by
  rcases hearly.measuring hphase with ⟨halvings, growths, htries, hhalved, hsamples⟩
  apply FixedSetting.windowOf_ok (t := t.beginIteration) hagents hload hhalved (by omega)
  -- A growth adds as many samples as there were at first, which is no more than doubling them.
  show t.sampleCount.toNat * 2 ^ halvings ≤ 10000 * 2 ^ 48
  calc t.sampleCount.toNat * 2 ^ halvings ≤ 10000 * (growths + 1) * 2 ^ halvings :=
        Nat.mul_le_mul_right _ hsamples
    _ ≤ 10000 * 2 ^ growths * 2 ^ halvings :=
        Nat.mul_le_mul_right _ (Nat.mul_le_mul_left _ Nat.lt_two_pow_self)
    _ = 10000 * 2 ^ (growths + halvings) := by rw [Nat.mul_assoc, ← Nat.pow_add]
    _ ≤ 10000 * 2 ^ 48 :=
        Nat.mul_le_mul_left _ (Nat.pow_le_pow_right (by decide) (by omega))

theorem lasting_early : s.Lasting Early := by
  constructor
  case going => exact fun ht => ht.unfinished
  case probe =>
    intro tries t reports ht hphase
    rcases ht.probing hphase with ⟨htries, hhalved, hsamples⟩
    unfold probedTuning
    split
    · exact ⟨nofun, nofun, fun _ => ⟨0, 0, by omega, hhalved, Nat.le_of_eq hsamples⟩⟩
    · refine ⟨?_, fun _ => ⟨by omega, ?_, ?_⟩, ?_⟩
      · rw [Tuning.phase_retry]
        exact ht.unfinished
      · unfold Tuning.Halved
        rw [Tuning.samplingRate_retry]
        exact hhalved
      · rw [Tuning.sampleCount_retry]
        exact hsamples
      · rw [Tuning.phase_retry, hphase]
        exact nofun
  case measure =>
    intro tries t window v ht hphase hwindow hv
    rcases ht.measuring hphase with ⟨halvings, growths, htries, hhalved, hsamples⟩
    have hphaseNext : (t.beginIteration.apply v).phase = .latency := by
      rw [Tuning.phase_apply t hv, hphase]
    refine ⟨by rw [hphaseNext]; exact nofun, by rw [hphaseNext]; exact nofun, fun _ => ?_⟩
    cases v with
    | accept => exact absurd rfl hv
    | halve =>
        refine ⟨halvings + 1, growths, by omega, hhalved.halve (by omega), ?_⟩
        rw [Tuning.sampleCount_halve]
        exact hsamples
    | grow reason =>
        refine ⟨halvings, growths + 1, by omega, hhalved.grow reason, ?_⟩
        rw [Tuning.sampleCount_grow, Capped.add32, Capped.word32_toNat]
        have hstep : Tuning.sampleStep.toNat = 10000 := rfl
        omega

end FixedSetting

theorem refused_symmetric {agents : Nat} {rate : UInt32} {tuning : Tuning} {entries : List Entry}
    {fault : ConfigFault} {q : Rat} (hagents : agents ≠ 0) (hrate : HasValue tuning.samplingRate q)
    (hleast : 100 * 2 ^ (-14 : Int) ≤ q) (hmost : q ≤ 100)
    (h : Course (symmetric agents rate tuning) entries (.error (.config fault))) :
    share rate agents = 0 ∧ rate.toNat < agents ∧ entries = symmetricOpening agents rate tuning ∧
      fault = .noSampleFlow 0 tuning.samplingRate := by
  rcases course_symmetric h with
    ⟨waited, reports, -, -, hresult⟩ | ⟨refused, hwindow, hentries, hresult⟩
  · cases hresult
  · cases hresult
    have hnone : (share rate agents).toNat = 0 := by
      by_contra hsome
      rcases Acceptance.measurementWindow_ok_of_percent (Nat.pos_of_ne_zero hsome) hrate hleast
        hmost with ⟨waited, hok⟩
      rw [hok] at hwindow
      cases hwindow
    have hshare : share rate agents = 0 := UInt32.toNat_inj.mp hnone
    refine ⟨hshare, rate_lt_of_share hagents hnone, hentries, ?_⟩
    rw [Acceptance.measurementWindow_error hwindow, hshare]
    rfl

/-- A measurement of symmetric agents that comes to an end had a share of the load for each. -/
theorem share_of_symmetric {agents : Nat} {rate : UInt32} {tuning : Tuning} {entries : List Entry}
    {point : Point} {q : Rat} (hrate : HasValue tuning.samplingRate q)
    (h : Course (symmetric agents rate tuning) entries (.ok point)) : share rate agents ≠ 0 := by
  intro hshare
  rcases course_symmetric h with ⟨waited, reports, hwindow, -, -⟩ | ⟨refused, -, -, hresult⟩
  · rcases Acceptance.measurementWindow_noLoad (congrArg UInt32.toNat hshare) hrate with
      ⟨fault, hfault⟩
    rw [hwindow] at hfault
    cases hfault
  · cases hresult

/-- Latency agents, which have a load of their own, are never refused a window. -/
theorem not_refused_asymmetric {agents : Nat} {loadRate latencyRate : UInt32} {tuning : Tuning}
    {entries : List Entry} {failure : Failure} (hlatency : 0 < latencyRate.toNat)
    (hrate : tuning.samplingRate = Tuning.initialSamplingRate)
    (h : Course (asymmetric agents loadRate latencyRate tuning) entries (.error failure)) :
    False := by
  rcases course_asymmetric h with ⟨waited, _, _, -, -, hresult⟩ | ⟨fault, hwindow, -, -⟩
  · cases hresult
  · rcases Acceptance.latencySamplingRate_value loadRate hlatency with ⟨q, hq, hleast, hmost⟩
    unfold asymmetricRate at hwindow
    rw [hrate] at hwindow
    rcases Acceptance.measurementWindow_ok_of_percent hlatency hq
      (le_trans (by norm_num) hleast) hmost with ⟨waited, hok⟩
    rw [hok] at hwindow
    cases hwindow

/-- Tries at a fixed rate end refused only where the share of the load is nothing, or after more
than fifty of them. -/
theorem refused_fixed {agents : Nat} {rate : UInt32} {widestMicros : UInt64} {maxTries : UInt32}
    {entries : List Entry} {fault : ConfigFault} (hagents : agents ≠ 0)
    (h : Course (fixed agents rate widestMicros maxTries .initial) entries
      (.error (.config fault))) :
    (rate.toNat < agents ∨ 50 < maxTries.toNat) ∧
      exists before sampleCount samplingRate,
        entries = before ++ [.answered (.startMeasure .symmetric sampleCount samplingRate) ()] ∧
          fault = .noSampleFlow (share rate agents).toUInt64 samplingRate := by
  let s : FixedSetting := ⟨agents, rate, widestMicros⟩
  rcases course_fixed h with ⟨rest, rfl, hattempts⟩
  generalize hresult : Except.error (Failure.config fault) = result at hattempts
  constructor
  · by_contra hneither
    rw [not_or, Nat.not_lt, Nat.not_lt] at hneither
    have hload : 1 ≤ s.load.toNat := by
      apply Nat.pos_of_ne_zero
      intro hnone
      exact absurd (rate_lt_of_share hagents hnone) (Nat.not_lt.mpr hneither.left)
    cases FixedSetting.course_attempts FixedSetting.lasting_early hattempts
        (FixedSetting.early_initial hneither.right) with
    | accepted => cases hresult
    | refused before hlast hphase hwindow =>
        rcases hlast.windowOf_ok (s := s) hphase hagents hload with ⟨window, hok⟩
        rw [hok] at hwindow
        cases hwindow
    | usedUp => cases hresult
  · cases FixedSetting.course_attempts (FixedSetting.lasting_reachable hagents) hattempts
        FixedSetting.reachable_initial with
    | accepted => cases hresult
    | @refused before left last refused hlast hphase hwindow =>
        cases hresult
        refine ⟨_ ++ before, _, _, (List.append_assoc _ _ _).symm, ?_⟩
        exact Acceptance.measurementWindow_error hwindow
    | usedUp => cases hresult

end Measurement

/-!
## Patterns that are refused
-/

namespace Pattern

open Measurement

/-- What symmetric agents are asked that are refused the window of a single measurement. -/
def refusedEvents (agents : Nat) (rate samples : UInt32) (samplingRate : Float) : List Event :=
  [.asked (.startLoad .symmetric (share rate agents)), .paused symmetricWarmUp,
    .asked (.startMeasure .symmetric samples samplingRate)]

/-- How a pattern on symmetric agents is refused: what was done before, and why.  Nothing is
reported in a single measurement. -/
inductive Refusal (agents : Nat) (maxTries : UInt32) :
    Pattern -> List Event -> ConfigFault -> Prop
  | test {rate samples : UInt32} (h : rate.toNat < agents) :
      Refusal agents maxTries (.test rate samples) (refusedEvents agents rate samples 20.0)
        (.noSampleFlow 0 20.0)
  | corr {rate samples : UInt32} (h : rate.toNat < agents) :
      Refusal agents maxTries (.corr rate samples) (refusedEvents agents rate samples 0.01)
        (.noSampleFlow 0 0.01)
  | fixed {rate sampleCount : UInt32} {samplingRate : Float} (before : List Event)
      (h : rate.toNat < agents ∨ 50 < maxTries.toNat) :
      Refusal agents maxTries (.fixed rate)
        (before ++ [.asked (.startMeasure .symmetric sampleCount samplingRate)])
        (.noSampleFlow (share rate agents).toUInt64 samplingRate)

variable {count : Group -> Nat} {settings : MeasurementSettings} {entries : List Entry}
  {fault : ConfigFault}

/-- Measurements at the rates of a sweep are refused only where the first one is: all have the same
share of the load. -/
theorem refused_sweep {agents : Nat} {rate samples : UInt32} {rates : List Float}
    (hagents : agents ≠ 0) (hrates : forall r, r ∈ rates -> r ∈ sweepRates)
    (h : Course (Procedure.each (fun r => symmetric agents rate
      { Tuning.initial with sampleCount := samples, samplingRate := r }) rates) entries
        (.error (.config fault))) :
    rate.toNat < agents ∧ exists first, rates.head? = some first ∧
      entries.map Entry.event = refusedEvents agents rate samples first ∧
        fault = .noSampleFlow 0 first := by
  have hrefused : forall {r entries fault}, r ∈ sweepRates ->
      Course (symmetric agents rate
        { Tuning.initial with sampleCount := samples, samplingRate := r }) entries
          (.error (.config fault)) ->
      share rate agents = 0 ∧ rate.toNat < agents ∧
        entries.map Entry.event = refusedEvents agents rate samples r ∧
          fault = .noSampleFlow 0 r := by
    intro r entries fault hr hcourse
    rcases value_sweep hr with ⟨q, hq, hleast, hmost⟩
    rcases refused_symmetric hagents hq hleast hmost hcourse with ⟨hshare, hrate, rfl, hfault⟩
    exact ⟨hshare, hrate, rfl, hfault⟩
  cases rates with
  | nil => cases h
  | cons first others =>
      have hfirst := hrates first List.mem_cons_self
      -- After a first measurement that went well, a later refusal would need a share of nothing.
      rcases Course.of_sequence h fun _ => rfl with
        ⟨point, before, rest, rfl, hok, hrest⟩ | ⟨failed, hfailed, hresult⟩
      · rcases value_sweep hfirst with ⟨q, hq, -, -⟩
        have hsome := share_of_symmetric hq hok
        rcases Course.of_sequence hrest fun _ => rfl with
          ⟨points, _, _, -, -, hdone⟩ | ⟨failed, hothers, hresult⟩
        · cases hdone
        · cases hresult
          rcases Course.of_each_error hothers with ⟨r, before, last, hmem, -, hlast⟩
          exact absurd (hrefused (hrates r (List.mem_cons_of_mem _ hmem)) hlast).left hsome
      · cases hresult
        rcases hrefused hfirst hfailed with ⟨-, hrate, hentries, hfault⟩
        exact ⟨hrate, first, rfl, hentries, hfault⟩

theorem refusal_of_course {p : Pattern} (hagents : p.ensureAgents count = .ok ())
    (hlatency : 0 < settings.latencyRate.toNat)
    (h : Course (p.points count settings) entries (.error (.config fault))) :
    Refusal (count .symmetric) settings.maxTries p (entries.map Entry.event) fault := by
  cases p with
  | fixed rate =>
      have hsymmetric := symmetric_of_ensured_fixed hagents
      rcases refused_fixed hsymmetric (error_of_single h) with
        ⟨hwhy, before, sampleCount, samplingRate, rfl, rfl⟩
      rw [List.map_append]
      exact .fixed _ hwhy
  | step start stop stride =>
      rcases Course.of_each_error h with ⟨load, before, last, -, -, hlast⟩
      exact (not_refused_asymmetric hlatency rfl hlast).elim
  | test rate samples =>
      by_cases hsymmetric : 0 < count .symmetric
      · rw [points_test_symmetric hsymmetric] at h
        rcases refused_symmetric (Nat.ne_of_gt hsymmetric) Acceptance.hasValue_initial
          (by norm_num) (by norm_num) (error_of_single h) with ⟨hshare, hrate, rfl, rfl⟩
        exact .test hrate
      · rw [points_test_asymmetric hsymmetric] at h
        exact (not_refused_asymmetric hlatency rfl (error_of_single h)).elim
  | corr rate samples =>
      have hsymmetric := symmetric_of_ensured_corr hagents
      rcases refused_sweep hsymmetric (fun r hr => hr) h with ⟨hrate, first, hfirst, hentries, rfl⟩
      cases hfirst
      rw [hentries]
      exact .corr hrate

/-- Over agents that never answer with a configuration failure, a run with resolved settings ends in
one only where a window is refused. -/
theorem config_failure_is_refusal
    (answer : (request : Request) -> σ -> Except Failure request.Answer × σ) (fleet : σ)
    (a : Arguments) (s : Settings) (fault : ConfigFault) :
    let run := (s.pattern.procedure s.roster.count s.measurement).run answer fleet
    Settings.resolve a = .ok s ->
      (forall request before fault after, answer request before ≠ (.error (.config fault), after)) ->
        run.result = .error (.config fault) ->
          Refusal (s.roster.count .symmetric) s.measurement.maxTries s.pattern run.events fault := by
  intro run hresolve hanswer hresult
  rcases Settings.resolve_ok hresolve with ⟨hagents, hlatency, -⟩
  rcases Procedure.run_course_error answer (s.pattern.strict_procedure _ _) hresult
    (fun request before after => hanswer request before fault after) with ⟨hcourse, hevents⟩
  rw [show run.events = _ from hevents.symm]
  rcases course_procedure hcourse with
    ⟨points, -, -, hok⟩ | ⟨failure, -, hpoints, hfailed⟩ | ⟨missing, hmissing, -, -⟩
  · cases hok
  · cases hfailed
    exact refusal_of_course hagents hlatency hpoints
  · rw [hagents] at hmissing
    cases hmissing

/-- One operation per second on two symmetric agents, with standard values for everything else. -/
def halfEach : Arguments :=
  { Arguments.standard with symmetricAgents := ["a", "b"], loadPattern := "test:1:100" }

def halfEachSettings : Settings where
  server := Arguments.standard.server
  roster := ⟨[], [], ["a", "b"]⟩
  agentPort := 5001
  loadBinary := none
  latencyBinary := none
  pattern := .test 1 100
  nicTimestamps := false
  measurement := .standard
  outputFormat := .text

theorem config_failure_is_refusal_halfEach :
    let s := halfEachSettings
    let run := (s.pattern.procedure s.roster.count s.measurement).run taciturn.answer .start
    Settings.resolve halfEach = .ok s ∧ run.result = .error (.config (.noSampleFlow 0 20.0)) ∧
      Refusal 2 20 (.test 1 100) run.events (.noSampleFlow 0 20.0) := by
  intro s run
  have hresolve : Settings.resolve halfEach = .ok s := by decide +kernel
  have hresult : run.result = .error (.config (.noSampleFlow 0 20.0)) := by decide +kernel
  have hanswer : forall request before fault after,
      taciturn.answer request before ≠ (.error (.config fault), after) := by
    intro request before fault after hfails
    cases congrArg Prod.fst hfails
  exact ⟨hresolve, hresult, config_failure_is_refusal taciturn.answer .start halfEach s
    (.noSampleFlow 0 20.0) hresolve hanswer hresult⟩

/-- The agents had taken their load and started to measure when the failure came up. -/
theorem config_failure_after_commands :
    let s := halfEachSettings
    let run := (s.pattern.procedure s.roster.count s.measurement).run taciturn.answer .start
    Settings.resolve halfEach = .ok s ∧ run.result = .error (.config (.noSampleFlow 0 20.0)) ∧
      .asked (.startLoad .symmetric 0) ∈ run.events ∧
      .asked (.startMeasure .symmetric 100 20.0) ∈ run.events := by
  refine ⟨?_, ?_, ?_, ?_⟩
  · decide +kernel
  · decide +kernel
  · decide +kernel
  · decide +kernel

end Pattern
end LoadFleet
