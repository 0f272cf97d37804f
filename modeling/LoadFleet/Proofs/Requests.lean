import LoadFleet.Proofs.MeasurementCourses
import LoadFleet.Proofs.Traces

/-!
# What is asked in a run

A rule for requests says which ones may be asked at all.  Where it admits the requests that the
measurements of a pattern are made of, no run of the pattern asks for anything else, whatever the
fleet answers.
-/

namespace LoadFleet

open Procedure (Event Keeps)

namespace Procedure

def Asks (allowed : Request -> Prop) : List Event -> Event -> Prop :=
  fun _ event => forall request, event = .asked request -> allowed request

variable {allowed : Request -> Prop} {past : List Event}

theorem asks_asked {request : Request} (h : allowed request) :
    Asks allowed past (.asked request) := by
  intro other heq
  cases heq
  exact h

theorem Keeps.allowed_of_mem {post : α -> List Event -> Prop}
    {p : Procedure (Except Failure α)} (h : Keeps (Asks allowed) post p past)
    (answer : (request : Request) -> σ -> Except Failure request.Answer × σ) (fleet : σ)
    {request : Request} (hmem : .asked request ∈ (p.run answer fleet).events) :
    allowed request := by
  rcases List.append_of_mem hmem with ⟨before, after, hsplit⟩
  exact h.orderly answer fleet before _ after hsplit request rfl

end Procedure

open Procedure (Asks asks_asked)

/-!
## Measurements
-/

namespace Measurement

variable {allowed : Request -> Prop} {past : List Event}

theorem keeps_window {rule : List Event -> Event -> Prop} (sampleCount load : UInt32)
    (samplingRate : Float) :
    Keeps rule
      (fun waited now =>
        now = past ∧ Acceptance.measurementWindow sampleCount load samplingRate = .ok waited)
      (window sampleCount load samplingRate) past := by
  unfold window
  cases Acceptance.measurementWindow sampleCount load samplingRate with
  | ok waited => exact .done ⟨rfl, rfl⟩
  | error fault => exact .fail _ _

theorem asks_symmetric {agents : Nat} {rate : UInt32} {tuning : Tuning}
    (hload : allowed (.startLoad .symmetric (share rate agents)))
    (hmeasure : allowed (.startMeasure .symmetric tuning.sampleCount tuning.samplingRate))
    (hreport : allowed (.reportLatency .symmetric)) :
    Keeps (Asks allowed) (fun _ _ => True) (symmetric agents rate tuning) past := by
  refine .asked (asks_asked hload) (fun _ => rfl) fun _ => .wait nofun ?_
  refine .asked (asks_asked hmeasure) (fun _ => rfl) fun _ => ?_
  refine (keeps_window _ _ _).bind (fun _ => rfl) fun waited now hwindow => .wait nofun ?_
  exact .asked (asks_asked hreport) (fun _ => rfl) fun reports => .wait nofun (.done trivial)

/-- The load is shared only where there are agents to share it. -/
theorem asks_startBackground {agents : Nat} {loadRate : UInt32}
    (hload : agents ≠ 0 -> allowed (.startLoad .throughput (share loadRate agents))) :
    Keeps (Asks allowed) (fun _ _ => True) (startBackground agents loadRate) past := by
  unfold startBackground
  by_cases hnone : agents = 0
  · rw [if_pos hnone]
    exact .done trivial
  · rw [if_neg hnone]
    exact .asked (asks_asked (hload hnone)) (fun _ => rfl) fun _ => .done trivial

theorem asks_asymmetric {agents : Nat} {loadRate latencyRate : UInt32} {tuning : Tuning}
    (hbackground : agents ≠ 0 -> allowed (.startLoad .throughput (share loadRate agents)))
    (hload : allowed (.startLoad .latency latencyRate))
    (hmeasure : allowed (.startMeasure .load tuning.sampleCount
      (asymmetricRate loadRate latencyRate tuning)))
    (hthroughput : allowed (.reportThroughput .throughput))
    (hlatency : allowed (.reportLatency .latency)) :
    Keeps (Asks allowed) (fun _ _ => True) (asymmetric agents loadRate latencyRate tuning)
      past := by
  refine (asks_startBackground hbackground).bind (fun _ => rfl) fun _ background _ => ?_
  refine .asked (asks_asked hload) (fun _ => rfl) fun _ => .wait nofun ?_
  refine .asked (asks_asked hmeasure) (fun _ => rfl) fun _ => ?_
  refine (keeps_window _ _ _).bind (fun _ => rfl) fun waited now hwindow => .wait nofun ?_
  refine .asked (asks_asked hthroughput) (fun _ => rfl) fun loadReports => ?_
  exact .asked (asks_asked hlatency) (fun _ => rfl) fun latencyReports => .done trivial

namespace FixedSetting

variable {s : FixedSetting} {t : Tuning}

theorem asks_probe
    (hmeasure : allowed (.startMeasure .symmetric t.sampleCount (s.samplingRate t)))
    (hreport : allowed (.reportThroughput .symmetric)) :
    Keeps (Asks allowed) (fun next _ => exists reports, next = s.probedTuning t reports)
      (s.probe t) past := by
  refine .asked (asks_asked hmeasure) (fun _ => rfl) fun _ => .wait nofun ?_
  exact .asked (asks_asked hreport) (fun _ => rfl) fun reports => .done ⟨reports, rfl⟩

theorem asks_measure
    (hmeasure : allowed (.startMeasure .symmetric t.sampleCount (s.samplingRate t)))
    (hreport : allowed (.reportLatency .symmetric)) :
    Keeps (Asks allowed)
      (fun result _ => result.2 = none ->
        exists window v, s.windowOf t = .ok window ∧ v ≠ .accept ∧ result.1 = t.apply v)
      (s.measure t) past := by
  refine .asked (asks_asked hmeasure) (fun _ => rfl) fun _ => ?_
  refine (keeps_window _ _ _).bind (fun _ => rfl) fun window now hwindow => .wait nofun ?_
  refine .asked (asks_asked hreport) (fun _ => rfl) fun reports => .done ?_
  intro hnone
  refine ⟨window, s.verdict reports, hwindow.right, ?_, rfl⟩
  intro haccept
  simp [haccept] at hnone

/-- Tries ask only for what is allowed with the parameters that an invariant of them admits. -/
theorem asks_attempts {invariant : Nat -> Tuning -> Prop} (hlasting : s.Lasting invariant)
    (hmeasure : forall tries t, invariant tries t ->
      allowed (.startMeasure .symmetric t.sampleCount (s.samplingRate t)))
    (hthroughput : allowed (.reportThroughput .symmetric))
    (hlatency : allowed (.reportLatency .symmetric)) {tries : Nat} (ht : invariant tries t) :
    Keeps (Asks allowed) (fun _ _ => True) (s.attempts tries t) past := by
  induction tries generalizing t past with
  | zero => exact .fail _ _
  | succ tries ih =>
      -- Beginning a try counts it and leaves what is sent as it was.
      have hnow : allowed (.startMeasure .symmetric t.beginIteration.sampleCount
          (s.samplingRate t.beginIteration)) := hmeasure _ t ht
      have hattempt : Keeps (Asks allowed)
          (fun result _ => result.2 = none -> invariant tries result.1) (s.attempt t) past := by
        cases hphase : t.phase with
        | exit => exact absurd hphase (hlasting.going ht)
        | throughput =>
            have hbegun : t.beginIteration.phase = .throughput := hphase
            simp only [attempt, hbegun]
            refine (asks_probe hnow hthroughput).bind (fun _ => rfl) fun next now hnext => ?_
            rcases hnext with ⟨reports, rfl⟩
            exact .done fun _ => hlasting.probe reports ht hphase
        | latency =>
            rw [attempt_latency hphase]
            apply (asks_measure hnow hlatency).mono
            intro result now hresult hnone
            rcases hresult hnone with ⟨window, v, hwindow, hv, heq⟩
            rw [heq]
            exact hlasting.measure ht hphase hwindow hv
      refine hattempt.bind (fun _ => rfl) fun tried now hnext => ?_
      rcases tried with ⟨next, point | point⟩
      · exact ih (hnext rfl)
      · exact .done trivial

end FixedSetting

theorem asks_fixed {agents : Nat} {rate : UInt32} {widestMicros : UInt64} {maxTries : UInt32}
    {tuning : Tuning} {invariant : Nat -> Tuning -> Prop}
    (hlasting : (FixedSetting.mk agents rate widestMicros).Lasting invariant)
    (hload : allowed (.startLoad .symmetric (share rate agents)))
    (hmeasure : forall tries t, invariant tries t -> allowed (.startMeasure .symmetric t.sampleCount
      ((FixedSetting.mk agents rate widestMicros).samplingRate t)))
    (hthroughput : allowed (.reportThroughput .symmetric))
    (hlatency : allowed (.reportLatency .symmetric)) (ht : invariant maxTries.toNat tuning) :
    Keeps (Asks allowed) (fun _ _ => True) (fixed agents rate widestMicros maxTries tuning) past :=
  .asked (asks_asked hload) (fun _ => rfl) fun _ => .wait nofun
    (FixedSetting.asks_attempts hlasting hmeasure hthroughput hlatency ht)

end Measurement

/-!
## Patterns
-/

namespace Pattern

open Measurement

/-- The loads that a pattern offers to its agents together. -/
def offeredLoads : Pattern -> List UInt32
  | .fixed rate => [rate]
  | .step start stop stride => stepLoads start stop stride
  | .test rate _ => [rate]
  | .corr rate _ => [rate]

variable {count : Group -> Nat} {settings : MeasurementSettings} {allowed : Request -> Prop}

theorem symmetric_of_ensured_fixed {rate : UInt32}
    (h : (Pattern.fixed rate).ensureAgents count = .ok ()) : count .symmetric ≠ 0 := by
  intro hnone
  rw [ensureAgents, if_pos hnone] at h
  cases h

theorem symmetric_of_ensured_corr {rate samples : UInt32}
    (h : (Pattern.corr rate samples).ensureAgents count = .ok ()) : count .symmetric ≠ 0 := by
  intro hnone
  rw [ensureAgents, if_pos hnone] at h
  cases h

theorem latency_of_ensured_step {start stop stride : UInt32}
    (h : (Pattern.step start stop stride).ensureAgents count = .ok ()) : count .latency ≠ 0 := by
  intro hnone
  rw [ensureAgents, if_pos hnone] at h
  cases h

theorem latency_of_ensured_test {rate samples : UInt32} (hsymmetric : ¬ 0 < count .symmetric)
    (h : (Pattern.test rate samples).ensureAgents count = .ok ()) : count .latency ≠ 0 := by
  intro hnone
  rw [ensureAgents, if_pos ⟨Nat.eq_zero_of_not_pos hsymmetric, hnone⟩] at h
  cases h

/-- A rule admits what a pattern asks of agents that are there, in its tries at a fixed rate as long
as an invariant of them holds. -/
structure Admits (allowed : Request -> Prop) (invariant : Nat -> Tuning -> Prop)
    (count : Group -> Nat) (settings : MeasurementSettings) (p : Pattern) : Prop where
  share : forall group total, group ≠ .latency -> count group ≠ 0 -> total ∈ p.offeredLoads ->
    allowed (.startLoad group (share total (count group)))
  latencyLoad : count .latency ≠ 0 -> allowed (.startLoad .latency settings.latencyRate)
  initial : forall sampleCount,
    allowed (.startMeasure .symmetric sampleCount Tuning.initialSamplingRate)
  latency : forall sampleCount load, allowed (.startMeasure .load sampleCount
    (Acceptance.latencySamplingRate load settings.latencyRate Tuning.initialSamplingRate))
  sweep : forall sampleCount samplingRate, samplingRate ∈ sweepRates ->
    allowed (.startMeasure .symmetric sampleCount samplingRate)
  fixed : forall rate tries t, p = .fixed rate -> invariant tries t ->
    allowed (.startMeasure .symmetric t.sampleCount
      ((FixedSetting.mk (count .symmetric) rate settings.widestMicros).samplingRate t))
  throughputReport : forall group, allowed (.reportThroughput group)
  latencyReport : forall group, allowed (.reportLatency group)

/-- A pattern with the agents it needs asks only for what is admitted. -/
theorem asks_procedure {invariant : Nat -> Tuning -> Prop} {p : Pattern}
    (hadmits : p.Admits allowed invariant count settings)
    (hlasting : forall rate, p = .fixed rate ->
      (FixedSetting.mk (count .symmetric) rate settings.widestMicros).Lasting invariant)
    (hinitial : invariant settings.maxTries.toNat .initial)
    (hagents : p.ensureAgents count = .ok ()) :
    Keeps (Asks allowed) (fun _ _ => True) (p.procedure count settings) [] := by
  have hpoints : Keeps (Asks allowed) (fun _ _ => True) (p.points count settings) [] := by
    cases p with
    | fixed rate =>
        have hload := hadmits.share .symmetric rate nofun (symmetric_of_ensured_fixed hagents)
          (List.mem_singleton_self rate)
        exact (asks_fixed (hlasting rate rfl) hload (fun tries t => hadmits.fixed rate tries t rfl)
          (hadmits.throughputReport .symmetric) (hadmits.latencyReport .symmetric)
          hinitial).bind (fun _ => rfl) fun _ _ _ => .done trivial
    | step start stop stride =>
        have hlatency := latency_of_ensured_step hagents
        refine Keeps.each_of_mem ?_ trivial
        intro load hload now _
        exact asks_asymmetric (fun hsome => hadmits.share .throughput load nofun hsome hload)
          (hadmits.latencyLoad hlatency) (hadmits.latency _ load)
          (hadmits.throughputReport .throughput) (hadmits.latencyReport .latency)
    | test rate samples =>
        have hrate : rate ∈ (Pattern.test rate samples).offeredLoads := List.mem_singleton_self rate
        by_cases hsymmetric : 0 < count .symmetric
        · rw [points_test_symmetric hsymmetric]
          have hload := hadmits.share .symmetric rate nofun (Nat.ne_of_gt hsymmetric) hrate
          exact (asks_symmetric hload (hadmits.initial _) (hadmits.latencyReport .symmetric)).bind
            (fun _ => rfl) fun _ _ _ => .done trivial
        · rw [points_test_asymmetric hsymmetric]
          have hlatency := latency_of_ensured_test hsymmetric hagents
          have hmeasure : allowed (.startMeasure .load samples
              (asymmetricRate rate settings.latencyRate
                { Tuning.initial with sampleCount := samples })) :=
            hadmits.latency samples rate
          exact (asks_asymmetric (fun hsome => hadmits.share .throughput rate nofun hsome hrate)
            (hadmits.latencyLoad hlatency) hmeasure (hadmits.throughputReport .throughput)
            (hadmits.latencyReport .latency)).bind (fun _ => rfl) fun _ _ _ => .done trivial
    | corr rate samples =>
        have hload := hadmits.share .symmetric rate nofun (symmetric_of_ensured_corr hagents)
          (List.mem_singleton_self rate)
        refine Keeps.each_of_mem ?_ trivial
        intro samplingRate hmem now _
        exact asks_symmetric hload (hadmits.sweep _ samplingRate hmem)
          (hadmits.latencyReport .symmetric)
  unfold procedure
  rw [hagents]
  exact hpoints.bind (fun _ => rfl) fun _ _ _ => .done trivial

end Pattern
end LoadFleet
