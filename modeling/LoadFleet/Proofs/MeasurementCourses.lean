import LoadFleet.Proofs.Courses
import LoadFleet.Proofs.FailingRequests

/-!
# What a measurement does

While requests are answered, a measurement can only go on to its end or stop where its window is
refused, which is right after the agents were told to measure.  Tries at a fixed rate are a row of
these, one behind the other.
-/

namespace LoadFleet

/-!
## Parameters from one try to the next
-/

namespace Tuning

variable (t : Tuning)

theorem phase_retry : t.beginIteration.retry.phase = t.phase := by
  simp only [retry, beginIteration]

theorem samplingRate_retry : t.beginIteration.retry.samplingRate = t.samplingRate := by
  simp only [retry, beginIteration]

theorem sampleCount_retry : t.beginIteration.retry.sampleCount = t.sampleCount := by
  simp only [retry, beginIteration]

theorem samplingRate_halve :
    (t.beginIteration.apply .halve).samplingRate = t.samplingRate / 2.0 := by
  simp only [apply, beginIteration]

theorem samplingRate_grow (reason : GrowReason) :
    (t.beginIteration.apply (.grow reason)).samplingRate = t.samplingRate :=
  t.samplingRate_retry

theorem sampleCount_halve : (t.beginIteration.apply .halve).sampleCount = t.sampleCount :=
  t.sampleCount_retry

theorem sampleCount_grow (reason : GrowReason) :
    (t.beginIteration.apply (.grow reason)).sampleCount =
      Capped.add32 t.sampleCount sampleStep := by
  simp only [apply, beginIteration]

theorem phase_apply {v : Verdict} (hv : v ≠ .accept) :
    (t.beginIteration.apply v).phase = t.phase := by
  cases v with
  | accept => exact absurd rfl hv
  | halve => exact t.phase_retry
  | grow reason => exact t.phase_retry

end Tuning

namespace Measurement

open Procedure (Entry Course Passes)

variable {entries : List Entry}

theorem course_window {sampleCount load : UInt32} {samplingRate : Float}
    {f : Except Failure Duration -> Procedure (Except Failure α)} {result : Except Failure α}
    (h : Course ((window sampleCount load samplingRate).bind f) entries result) (hf : Passes f) :
    (exists waited, Acceptance.measurementWindow sampleCount load samplingRate = .ok waited ∧
        Course (f (.ok waited)) entries result) ∨
      exists fault, Acceptance.measurementWindow sampleCount load samplingRate = .error fault ∧
        entries = [] ∧ result = .error (.config fault) := by
  cases hwindow : Acceptance.measurementWindow sampleCount load samplingRate with
  | ok waited =>
      rw [window, hwindow] at h
      exact .inl ⟨waited, rfl, h⟩
  | error fault =>
      rw [window, hwindow] at h
      have hstop : Course (f (.error (.config fault))) entries result := h
      rw [hf (.config fault)] at hstop
      exact .inr ⟨fault, rfl, Course.of_done hstop⟩

/-!
## Symmetric agents
-/

/-- What is done with symmetric agents before their window is computed. -/
def symmetricOpening (agents : Nat) (rate : UInt32) (tuning : Tuning) : List Entry :=
  [.answered (.startLoad .symmetric (share rate agents)) (), .paused symmetricWarmUp,
    .answered (.startMeasure .symmetric tuning.sampleCount tuning.samplingRate) ()]

theorem course_symmetric {agents : Nat} {rate : UInt32} {tuning : Tuning}
    {result : Except Failure Point} (h : Course (symmetric agents rate tuning) entries result) :
    (exists waited reports,
        Acceptance.measurementWindow tuning.sampleCount (share rate agents) tuning.samplingRate =
          .ok waited ∧
        entries = symmetricOpening agents rate tuning ++
          [.paused waited, .answered (.reportLatency .symmetric) reports,
            .paused symmetricCoolDown] ∧
        result = .ok (symmetricPoint rate tuning waited reports)) ∨
      exists fault,
        Acceptance.measurementWindow tuning.sampleCount (share rate agents) tuning.samplingRate =
          .error fault ∧
        entries = symmetricOpening agents rate tuning ∧ result = .error (.config fault) := by
  rcases Course.of_ask h with ⟨_, _, rfl, hload⟩
  rcases Course.of_wait hload with ⟨_, rfl, hwarm⟩
  rcases Course.of_ask hwarm with ⟨_, _, rfl, hstart⟩
  rcases course_window hstart fun _ => rfl with
    ⟨waited, hwindow, hgo⟩ | ⟨fault, hwindow, rfl, rfl⟩
  · rcases Course.of_wait hgo with ⟨_, rfl, hwait⟩
    rcases Course.of_ask hwait with ⟨reports, _, rfl, hreport⟩
    rcases Course.of_wait hreport with ⟨_, rfl, hcool⟩
    rcases Course.of_done hcool with ⟨rfl, rfl⟩
    exact .inl ⟨waited, reports, hwindow, rfl, rfl⟩
  · exact .inr ⟨fault, hwindow, rfl, rfl⟩

/-!
## Latency agents beside load agents
-/

def asymmetricRate (loadRate latencyRate : UInt32) (tuning : Tuning) : Float :=
  Acceptance.latencySamplingRate loadRate latencyRate tuning.samplingRate

/-- What is done with the throughput agents before the latency agents start. -/
def backgroundOpening (agents : Nat) (loadRate : UInt32) : List Entry :=
  if agents = 0 then [] else [.answered (.startLoad .throughput (share loadRate agents)) ()]

/-- What is done with load and latency agents before their window is computed. -/
def asymmetricOpening (agents : Nat) (loadRate latencyRate : UInt32) (tuning : Tuning) :
    List Entry :=
  backgroundOpening agents loadRate ++
    [.answered (.startLoad .latency latencyRate) (), .paused asymmetricWarmUp,
      .answered (.startMeasure .load tuning.sampleCount
        (asymmetricRate loadRate latencyRate tuning)) ()]

theorem course_startBackground {agents : Nat} {loadRate : UInt32}
    {f : Except Failure Unit -> Procedure α} {result : α}
    (h : Course ((startBackground agents loadRate).bind f) entries result) :
    exists rest,
      entries = backgroundOpening agents loadRate ++ rest ∧ Course (f (.ok ())) rest result := by
  unfold startBackground at h
  unfold backgroundOpening
  by_cases hnone : agents = 0
  · rw [if_pos hnone] at h
    rw [if_pos hnone]
    exact ⟨entries, rfl, h⟩
  · rw [if_neg hnone] at h
    rw [if_neg hnone]
    rcases Course.of_ask h with ⟨_, rest, rfl, hrest⟩
    exact ⟨rest, rfl, hrest⟩

theorem course_asymmetric {agents : Nat} {loadRate latencyRate : UInt32} {tuning : Tuning}
    {result : Except Failure Point}
    (h : Course (asymmetric agents loadRate latencyRate tuning) entries result) :
    (exists waited loadReports latencyReports,
        Acceptance.measurementWindow tuning.sampleCount latencyRate
          (asymmetricRate loadRate latencyRate tuning) = .ok waited ∧
        entries = asymmetricOpening agents loadRate latencyRate tuning ++
          [.paused waited, .answered (.reportThroughput .throughput) loadReports,
            .answered (.reportLatency .latency) latencyReports] ∧
        result = .ok (asymmetricPoint loadRate latencyRate
          (asymmetricRate loadRate latencyRate tuning) tuning waited loadReports latencyReports)) ∨
      exists fault,
        Acceptance.measurementWindow tuning.sampleCount latencyRate
          (asymmetricRate loadRate latencyRate tuning) = .error fault ∧
        entries = asymmetricOpening agents loadRate latencyRate tuning ∧
        result = .error (.config fault) := by
  rcases course_startBackground h with ⟨_, rfl, hbackground⟩
  rcases Course.of_ask hbackground with ⟨_, _, rfl, hload⟩
  rcases Course.of_wait hload with ⟨_, rfl, hwarm⟩
  rcases Course.of_ask hwarm with ⟨_, _, rfl, hstart⟩
  rcases course_window hstart fun _ => rfl with
    ⟨waited, hwindow, hgo⟩ | ⟨fault, hwindow, rfl, rfl⟩
  · rcases Course.of_wait hgo with ⟨_, rfl, hwait⟩
    rcases Course.of_ask hwait with ⟨loadReports, _, rfl, hthroughput⟩
    rcases Course.of_ask hthroughput with ⟨latencyReports, _, rfl, hlatency⟩
    rcases Course.of_done hlatency with ⟨rfl, rfl⟩
    refine .inl ⟨waited, loadReports, latencyReports, hwindow, ?_, rfl⟩
    rw [asymmetricOpening, List.append_assoc]
    rfl
  · exact .inr ⟨fault, hwindow, rfl, rfl⟩

/-!
## Tries at a fixed rate
-/

namespace FixedSetting

variable {s : FixedSetting}

def startEntry (s : FixedSetting) (t : Tuning) : Entry :=
  .answered (.startMeasure .symmetric t.sampleCount (s.samplingRate t)) ()

def probedTuning (s : FixedSetting) (t : Tuning) (reports : List ThroughputReport) : Tuning :=
  if Acceptance.throughputInBand (probed reports) s.rate then t.acceptThroughput else t.retry

theorem course_probe {t : Tuning} {result : Except Failure Tuning}
    (h : Course (s.probe t) entries result) :
    exists reports,
      entries = [s.startEntry t, .paused throughputProbe,
        .answered (.reportThroughput .symmetric) reports] ∧
      result = .ok (s.probedTuning t reports) := by
  rcases Course.of_ask h with ⟨_, _, rfl, hstart⟩
  rcases Course.of_wait hstart with ⟨_, rfl, hwait⟩
  rcases Course.of_ask hwait with ⟨reports, _, rfl, hreport⟩
  rcases Course.of_done hreport with ⟨rfl, rfl⟩
  exact ⟨reports, rfl, rfl⟩

def measuredEntries (s : FixedSetting) (t : Tuning) (window : Duration)
    (reports : List LatencyReport) : List Entry :=
  [s.startEntry t, .paused (window.add latencySlack), .answered (.reportLatency .symmetric) reports]

def windowOf (s : FixedSetting) (t : Tuning) : Except ConfigFault Duration :=
  Acceptance.measurementWindow t.sampleCount s.load (s.samplingRate t)

theorem course_measure {t : Tuning} {result : Except Failure (Tuning × Option Point)}
    (h : Course (s.measure t) entries result) :
    (exists window reports,
        s.windowOf t = .ok window ∧
        entries = s.measuredEntries t window reports ∧
        result = .ok (t.apply (s.verdict reports),
          if s.verdict reports = .accept then
            some (s.point t (t.apply (s.verdict reports)) (window.add latencySlack) reports)
          else none)) ∨
      exists fault,
        s.windowOf t = .error fault ∧ entries = [s.startEntry t] ∧
          result = .error (.config fault) := by
  rcases Course.of_ask h with ⟨_, _, rfl, hstart⟩
  rcases course_window hstart fun _ => rfl with
    ⟨window, hwindow, hgo⟩ | ⟨fault, hwindow, rfl, rfl⟩
  · rcases Course.of_wait hgo with ⟨_, rfl, hwait⟩
    rcases Course.of_ask hwait with ⟨reports, _, rfl, hreport⟩
    rcases Course.of_done hreport with ⟨rfl, rfl⟩
    exact .inl ⟨window, reports, hwindow, rfl, rfl⟩
  · exact .inr ⟨fault, hwindow, rfl, rfl⟩

theorem course_attempt_throughput {t : Tuning} (hphase : t.phase = .throughput)
    {result : Except Failure (Tuning × Option Point)} (h : Course (s.attempt t) entries result) :
    exists reports, result = .ok (s.probedTuning t.beginIteration reports, none) := by
  have hbegun : t.beginIteration.phase = .throughput := hphase
  simp only [attempt, hbegun] at h
  rcases Course.of_sequence (p := s.probe t.beginIteration) h fun _ => rfl with
    ⟨next, first, rest, rfl, hprobe, hrest⟩ | ⟨failure, hprobe, -⟩
  · rcases course_probe hprobe with ⟨reports, -, hnext⟩
    cases hnext
    exact ⟨reports, (Course.of_done hrest).right⟩
  · rcases course_probe hprobe with ⟨reports, -, hfailed⟩
    cases hfailed

theorem attempt_latency {t : Tuning} (hphase : t.phase = .latency) :
    s.attempt t = s.measure t.beginIteration := by
  have hbegun : t.beginIteration.phase = .latency := hphase
  simp only [attempt, hbegun]

/-- What holds of the parameters before every try, where a number of tries is left. -/
structure Lasting (s : FixedSetting) (invariant : Nat -> Tuning -> Prop) : Prop where
  going : forall {tries t}, invariant tries t -> t.phase ≠ .exit
  probe : forall {tries t} reports, invariant (tries + 1) t -> t.phase = .throughput ->
    invariant tries (s.probedTuning t.beginIteration reports)
  measure : forall {tries t window v}, invariant (tries + 1) t -> t.phase = .latency ->
    s.windowOf t.beginIteration = .ok window -> v ≠ .accept ->
      invariant tries (t.beginIteration.apply v)

/-- How tries end: in a measurement that is accepted, in one whose window is refused, or because
they are used up. -/
inductive Ending (s : FixedSetting) (invariant : Nat -> Tuning -> Prop) :
    List Entry -> Except Failure Point -> Prop
  | accepted (before : List Entry) {left : Nat} {last : Tuning} {window : Duration}
      {reports : List LatencyReport} (hlast : invariant (left + 1) last)
      (hphase : last.phase = .latency) (hwindow : s.windowOf last.beginIteration = .ok window)
      (haccept : s.verdict reports = .accept) :
      Ending s invariant (before ++ s.measuredEntries last.beginIteration window reports)
        (.ok (s.point last.beginIteration (last.beginIteration.apply .accept)
          (window.add latencySlack) reports))
  | refused (before : List Entry) {left : Nat} {last : Tuning} {fault : ConfigFault}
      (hlast : invariant (left + 1) last) (hphase : last.phase = .latency)
      (hwindow : s.windowOf last.beginIteration = .error fault) :
      Ending s invariant (before ++ [s.startEntry last.beginIteration]) (.error (.config fault))
  | usedUp (entries : List Entry) (last : Tuning) :
      Ending s invariant entries (.error (s.exhausted last))

theorem Ending.after {invariant : Nat -> Tuning -> Prop} {result : Except Failure Point}
    (h : Ending s invariant entries result) (first : List Entry) :
    Ending s invariant (first ++ entries) result := by
  cases h with
  | accepted before hlast hphase hwindow haccept =>
      rw [← List.append_assoc]
      exact .accepted (first ++ before) hlast hphase hwindow haccept
  | refused before hlast hphase hwindow =>
      rw [← List.append_assoc]
      exact .refused (first ++ before) hlast hphase hwindow
  | usedUp _ last => exact .usedUp _ last

theorem course_attempts {invariant : Nat -> Tuning -> Prop} (hlasting : s.Lasting invariant)
    {tries : Nat} {t : Tuning} {result : Except Failure Point}
    (h : Course (s.attempts tries t) entries result) (ht : invariant tries t) :
    Ending s invariant entries result := by
  -- By induction on the tries that are left; the invariant is handed on from one to the next.
  induction tries generalizing t entries with
  | zero =>
      rcases Course.of_done h with ⟨rfl, rfl⟩
      exact .usedUp [] t
  | succ tries ih =>
      cases hphase : t.phase with
      | exit => exact absurd hphase (hlasting.going ht)
      | throughput =>
          rcases Course.of_sequence (p := s.attempt t) h fun _ => rfl with
            ⟨value, first, rest, rfl, hfirst, hrest⟩ | ⟨failure, hfailed, -⟩
          · rcases course_attempt_throughput hphase hfirst with ⟨reports, hvalue⟩
            cases hvalue
            exact (ih hrest (hlasting.probe reports ht hphase)).after first
          · rcases course_attempt_throughput hphase hfailed with ⟨reports, hvalue⟩
            cases hvalue
      | latency =>
          rcases Course.of_sequence (p := s.attempt t) h fun _ => rfl with
            ⟨value, first, rest, rfl, hfirst, hrest⟩ | ⟨failure, hfailed, hresult⟩
          · rw [attempt_latency hphase] at hfirst
            rcases course_measure hfirst with
              ⟨window, reports, hwindow, rfl, hvalue⟩ | ⟨fault, -, -, hvalue⟩
            · cases hvalue
              by_cases haccept : s.verdict reports = .accept
              · rw [if_pos haccept, haccept] at hrest
                rcases Course.of_done hrest with ⟨rfl, rfl⟩
                rw [List.append_nil]
                exact .accepted [] ht hphase hwindow haccept
              · rw [if_neg haccept] at hrest
                exact (ih hrest (hlasting.measure ht hphase hwindow haccept)).after _
            · cases hvalue
          · rw [attempt_latency hphase] at hfailed
            rcases course_measure hfailed with
              ⟨window, reports, -, -, hvalue⟩ | ⟨fault, hwindow, rfl, hvalue⟩
            · cases hvalue
            · cases hvalue
              rw [hresult]
              exact .refused [] ht hphase hwindow

end FixedSetting

theorem course_fixed {agents : Nat} {rate : UInt32} {widestMicros : UInt64} {maxTries : UInt32}
    {tuning : Tuning} {result : Except Failure Point}
    (h : Course (fixed agents rate widestMicros maxTries tuning) entries result) :
    exists rest,
      entries = [.answered (.startLoad .symmetric (share rate agents)) (), .paused fixedSettle] ++
        rest ∧
      Course ((FixedSetting.mk agents rate widestMicros).attempts maxTries.toNat tuning) rest
        result := by
  rcases Course.of_ask h with ⟨_, _, rfl, hload⟩
  rcases Course.of_wait hload with ⟨rest, rfl, hsettle⟩
  exact ⟨rest, rfl, hsettle⟩

end Measurement

/-!
## Patterns
-/

namespace Pattern

open Procedure (Entry Course)

section

variable {answer : (request : Request) -> σ -> Except Failure request.Answer × σ}

theorem run_single (measurement : Procedure (Except Failure Point)) (fleet : σ) :
    (single measurement).run answer fleet = (measurement.run answer fleet).map fun p => [p] := by
  refine Procedure.run_bind_done ?_ ?_ <;> exact fun _ => rfl

/-- With the agents it needs, a pattern is run by measuring its points. -/
theorem run_of_ensured {p : Pattern} {count : Group -> Nat} {settings : MeasurementSettings}
    (hagents : p.ensureAgents count = .ok ()) (fleet : σ) :
    (p.procedure count settings).run answer fleet =
      ((p.points count settings).run answer fleet).map (Outcome.mk p.text) := by
  rw [procedure, hagents]
  refine Procedure.run_bind_done ?_ ?_ <;> exact fun _ => rfl

end

variable {count : Group -> Nat} {settings : MeasurementSettings} {entries : List Entry}

theorem points_test_symmetric {rate samples : UInt32} (h : 0 < count .symmetric) :
    (Pattern.test rate samples).points count settings =
      single (Measurement.symmetric (count .symmetric) rate
        { Tuning.initial with sampleCount := samples }) := by
  simp only [points, if_pos h]

theorem points_test_asymmetric {rate samples : UInt32} (h : ¬ 0 < count .symmetric) :
    (Pattern.test rate samples).points count settings =
      single (Measurement.asymmetric (count .throughput) rate settings.latencyRate
        { Tuning.initial with sampleCount := samples }) := by
  simp only [points, if_neg h]

theorem ok_of_single {measurement : Procedure (Except Failure Point)} {points : List Point}
    (h : Course (single measurement) entries (.ok points)) :
    exists point, points = [point] ∧ Course measurement entries (.ok point) := by
  rcases Course.of_sequence h fun _ => rfl with
    ⟨point, first, rest, rfl, hfirst, hrest⟩ | ⟨failure, -, hfailed⟩
  · rcases Course.of_done hrest with ⟨rfl, hpoints⟩
    cases hpoints
    rw [List.append_nil]
    exact ⟨point, rfl, hfirst⟩
  · cases hfailed

theorem error_of_single {measurement : Procedure (Except Failure Point)} {failure : Failure}
    (h : Course (single measurement) entries (.error failure)) :
    Course measurement entries (.error failure) := by
  rcases Course.of_sequence h fun _ => rfl with
    ⟨point, first, rest, rfl, hfirst, hrest⟩ | ⟨other, hfailed, hresult⟩
  · rcases Course.of_done hrest with ⟨rfl, hpoints⟩
    cases hpoints
  · cases hresult
    exact hfailed

theorem course_procedure {p : Pattern} {result : Except Failure Outcome}
    (h : Course (p.procedure count settings) entries result) :
    (exists points, p.ensureAgents count = .ok () ∧
        Course (p.points count settings) entries (.ok points) ∧ result = .ok ⟨p.text, points⟩) ∨
      (exists failure, p.ensureAgents count = .ok () ∧
        Course (p.points count settings) entries (.error failure) ∧ result = .error failure) ∨
      exists fault, p.ensureAgents count = .error fault ∧ entries = [] ∧
        result = .error (.config fault) := by
  unfold procedure at h
  cases hagents : p.ensureAgents count with
  | error fault =>
      rw [hagents] at h
      exact .inr (.inr ⟨fault, rfl, Course.of_done h⟩)
  | ok =>
      rw [hagents] at h
      rcases Course.of_sequence (p := p.points count settings) h fun _ => rfl with
        ⟨points, first, rest, rfl, hpoints, hdone⟩ | ⟨failure, hfailed, hresult⟩
      · rcases Course.of_done hdone with ⟨rfl, rfl⟩
        rw [List.append_nil]
        exact .inl ⟨points, rfl, hpoints, rfl⟩
      · exact .inr (.inl ⟨failure, rfl, hfailed, hresult⟩)

end Pattern
end LoadFleet
