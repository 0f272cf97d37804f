import LoadFleet.Proofs.MeasurementCourses
import LoadFleet.Rehearsal

/-!
# Where the numbers of a point come from

Every point of an outcome goes back to one measurement of the run: what was asked of the agents, how
long was waited for it, and what they reported are the numbers of the point.  A measurement that was
tried before, or that belongs to another point, leaves no trace in it.
-/

namespace LoadFleet

open Procedure (Entry Course)

/-- A measurement as the agents took part in it.  Where throughput agents work in the background,
they report before the others. -/
structure Taken where
  sampleCount : UInt32
  samplingRate : Float
  waited : Duration
  background : Option (List ThroughputReport)
  reports : List LatencyReport

namespace Mode

def measuring : Mode -> Group
  | .fixed => .symmetric
  | .symmetric => .symmetric
  | .asymmetric => .load

def reporting : Mode -> Group
  | .fixed => .symmetric
  | .symmetric => .symmetric
  | .asymmetric => .latency

/-- The sampling rate that is sent for a point with a rate, on this many symmetric agents. -/
def sentRate (symmetric : Nat) (rate : Float) : Mode -> Float
  | .fixed => (UInt32.ofNat symmetric).toFloat * rate
  | .symmetric => rate
  | .asymmetric => rate

end Mode

namespace Taken

def entries (m : Taken) (mode : Mode) : List Entry :=
  [.answered (.startMeasure mode.measuring m.sampleCount m.samplingRate) (), .paused m.waited] ++
    (m.background.map fun reports => .answered (.reportThroughput .throughput) reports).toList ++
      [.answered (.reportLatency mode.reporting) m.reports]

def counters (m : Taken) : List Counters :=
  (m.background.getD []).map ThroughputReport.stats ++ m.reports.map fun r => r.stats.throughput

end Taken

/-- The numbers of a point are those of a measurement. -/
structure Point.Describes (symmetric : Nat) (p : Point) (m : Taken) : Prop where
  sampleCount : p.sampleCount = m.sampleCount
  samplingRate : m.samplingRate = p.mode.sentRate symmetric p.samplingRate
  windowSeconds : p.windowSeconds = m.waited.seconds
  rates : p.rates = p.totals.rates m.waited
  latency : p.latency = MergedLatency.ofStats (m.reports.map LatencyReport.stats)
  totals : p.totals = Totals.ofCounters m.counters
  agents : p.totals.agents = (m.background.getD []).length + m.reports.length
  background : m.background.isSome = true <-> p.mode = .asymmetric
  convergence : p.trailers.convergence =
    m.reports.filterMap fun r => r.trailer.map Trailer.convergence
  correlations : p.trailers.correlations =
    m.reports.filterMap fun r => r.trailer.map Trailer.correlation
  interArrival : p.trailers.interArrival =
    (m.reports.filterMap fun r => r.trailer.map Trailer.interArrival) ++
      (m.background.getD []).filterMap ThroughputReport.interArrival

/-- A point describes the last measurement in a stretch of a course: nothing is asked after it, and
only where measurements are tried again are latencies reported before it. -/
def Point.LastIn (symmetric : Nat) (p : Point) (stretch : List Entry) : Prop :=
  exists before m after,
    stretch = before ++ m.entries p.mode ++ after ∧
      (p.mode = .fixed ∨
        forall group, Request.reportLatency group ∉ Procedure.requests (before.map Entry.event)) ∧
      Procedure.requests (after.map Entry.event) = [] ∧ p.Describes symmetric m

theorem Totals.agents_ofCounters (counters : List Counters) :
    (Totals.ofCounters counters).agents = counters.length := by
  have hfold : forall t : Totals,
      (counters.foldl absorb t).agents = t.agents + counters.length := by
    induction counters with
    | nil =>
        intro t
        rfl
    | cons c rest ih =>
        intro t
        rw [List.foldl_cons, ih, List.length_cons, Nat.add_comm rest.length, ← Nat.add_assoc]
        rfl
  rw [ofCounters, hfold]
  exact Nat.zero_add _

theorem Trailers.extend_nil (t : Trailers) : t.extend [] = t := by
  rw [extend, List.filterMap_nil, List.append_nil]

/-- Totals and trailer values are counted and listed report by report. -/
theorem Point.describes_of_reports {symmetric : Nat} {p : Point} {m : Taken}
    (hsampleCount : p.sampleCount = m.sampleCount)
    (hsamplingRate : m.samplingRate = p.mode.sentRate symmetric p.samplingRate)
    (hwindow : p.windowSeconds = m.waited.seconds) (hrates : p.rates = p.totals.rates m.waited)
    (hlatency : p.latency = MergedLatency.ofStats (m.reports.map LatencyReport.stats))
    (htotals : p.totals = Totals.ofCounters m.counters)
    (hbackground : m.background.isSome = true <-> p.mode = .asymmetric)
    (htrailers : p.trailers = (Trailers.ofReports m.reports).extend (m.background.getD [])) :
    p.Describes symmetric m where
  sampleCount := hsampleCount
  samplingRate := hsamplingRate
  windowSeconds := hwindow
  rates := hrates
  latency := hlatency
  totals := htotals
  agents := by
    rw [htotals, Totals.agents_ofCounters, Taken.counters, List.length_append, List.length_map,
      List.length_map]
  background := hbackground
  convergence := by
    rw [htrailers]
    exact List.map_filterMap
  correlations := by
    rw [htrailers]
    exact List.map_filterMap
  interArrival := by
    rw [htrailers]
    exact congrArg (· ++ _) List.map_filterMap

/-!
## Single measurements
-/

namespace Measurement

theorem agentWord_of_le {agents : Nat} (h : agents ≤ 4294967295) :
    agentWord agents = UInt32.ofNat agents := by
  unfold agentWord Capped.word32
  rw [Nat.min_eq_left h]

variable {entries : List Entry} {point : Point} {symmetric : Nat}

theorem lastIn_symmetric {agents : Nat} {rate : UInt32} {tuning : Tuning}
    (h : Course (Measurement.symmetric agents rate tuning) entries (.ok point)) :
    point.LastIn symmetric entries := by
  rcases course_symmetric h with ⟨waited, reports, -, rfl, hpoint⟩ | ⟨fault, -, -, hfault⟩
  · cases hpoint
    refine ⟨[.answered (.startLoad .symmetric (share rate agents)) (), .paused symmetricWarmUp],
      ⟨tuning.sampleCount, tuning.samplingRate, waited, none, reports⟩,
      [.paused symmetricCoolDown], rfl, .inr (by simp [Entry.event]), rfl, ?_⟩
    apply Point.describes_of_reports rfl rfl rfl rfl rfl
    · exact congrArg Totals.ofCounters List.map_map
    · exact ⟨nofun, nofun⟩
    · exact (Trailers.extend_nil _).symm
  · cases hfault

theorem lastIn_asymmetric {agents : Nat} {loadRate latencyRate : UInt32} {tuning : Tuning}
    (h : Course (asymmetric agents loadRate latencyRate tuning) entries (.ok point)) :
    point.LastIn symmetric entries := by
  rcases course_asymmetric h with
    ⟨waited, loadReports, latencyReports, -, rfl, hpoint⟩ | ⟨fault, -, -, hfault⟩
  · cases hpoint
    refine ⟨backgroundOpening agents loadRate ++
        [.answered (.startLoad .latency latencyRate) (), .paused asymmetricWarmUp],
      ⟨tuning.sampleCount, asymmetricRate loadRate latencyRate tuning, waited, some loadReports,
        latencyReports⟩, [], ?_, .inr ?_, rfl, ?_⟩
    · simp [asymmetricOpening, Taken.entries, asymmetricPoint, Mode.measuring, Mode.reporting]
    · intro group
      unfold backgroundOpening
      split <;> simp [Entry.event]
    · apply Point.describes_of_reports rfl rfl rfl rfl rfl
      · exact congrArg (fun counters => Totals.ofCounters (_ ++ counters)) List.map_map
      · exact ⟨fun _ => rfl, fun _ => rfl⟩
      · rfl
  · cases hfault

namespace FixedSetting

variable {s : FixedSetting}

theorem lasting_unfinished : s.Lasting fun _ t => t.phase ≠ .exit := by
  constructor
  case going => exact fun ht => ht
  case probe =>
    intro tries t reports ht hphase
    unfold probedTuning
    split
    · exact nofun
    · rw [Tuning.phase_retry]
      exact ht
  case measure =>
    intro tries t window v ht hphase hwindow hv
    rw [Tuning.phase_apply t hv]
    exact ht

theorem describes_point (hagents : s.agents ≤ 4294967295) (measured accepted : Tuning)
    (waited : Duration) (reports : List LatencyReport) :
    (s.point measured accepted waited reports).Describes s.agents
      ⟨measured.sampleCount, s.samplingRate measured, waited, none, reports⟩ := by
  apply Point.describes_of_reports
  · rfl
  · show (agentWord s.agents).toFloat * measured.samplingRate =
      (UInt32.ofNat s.agents).toFloat * measured.samplingRate
    rw [agentWord_of_le hagents]
  · rfl
  · rfl
  · rfl
  · exact congrArg Totals.ofCounters List.map_map
  · exact ⟨nofun, nofun⟩
  · exact (Trailers.extend_nil _).symm

end FixedSetting

/-- Whatever was tried before, the point has the parameters that the accepted try started from. -/
theorem lastIn_fixed {agents : Nat} {rate : UInt32} {widestMicros : UInt64} {maxTries : UInt32}
    (hagents : agents ≤ 4294967295)
    (h : Course (fixed agents rate widestMicros maxTries .initial) entries (.ok point)) :
    point.LastIn agents entries := by
  let s : FixedSetting := ⟨agents, rate, widestMicros⟩
  rcases course_fixed h with ⟨rest, rfl, hattempts⟩
  have hending := FixedSetting.course_attempts FixedSetting.lasting_unfinished hattempts nofun
  generalize hresult : Except.ok point = result at hending
  cases hending with
  | @accepted before left last window reports hlast hphase hwindow haccept =>
      cases hresult
      refine ⟨[.answered (.startLoad .symmetric (share rate agents)) (), .paused fixedSettle] ++
          before, _, [], ?_, .inl rfl, rfl,
        FixedSetting.describes_point (s := s) hagents last.beginIteration _ _ reports⟩
      rw [List.append_nil, List.append_assoc]
      rfl
  | refused before hlast hphase hwindow => cases hresult
  | usedUp rest last => cases hresult

end Measurement

/-!
## Patterns
-/

namespace Pattern

/-- A stretch of a course for each of some points, which the point describes. -/
def Described (symmetric : Nat) (points : List Point) (entries : List Entry) : Prop :=
  exists stretches : List (List Entry),
    entries = stretches.flatten ∧ List.Forall₂ (Point.LastIn symmetric) points stretches

variable {count : Group -> Nat} {settings : MeasurementSettings} {entries : List Entry}

theorem described_single {symmetric : Nat} {measurement : Procedure (Except Failure Point)}
    {points : List Point}
    (hpoint : forall {entries point}, Course measurement entries (.ok point) ->
      point.LastIn symmetric entries)
    (h : Course (single measurement) entries (.ok points)) :
    Described symmetric points entries := by
  rcases ok_of_single h with ⟨point, rfl, hcourse⟩
  exact ⟨[entries], by simp, .cons (hpoint hcourse) .nil⟩

theorem described_each {symmetric : Nat} {f : α -> Procedure (Except Failure Point)}
    {items : List α} {points : List Point}
    (hpoint : forall {item entries point}, Course (f item) entries (.ok point) ->
      point.LastIn symmetric entries)
    (h : Course (Procedure.each f items) entries (.ok points)) :
    Described symmetric points entries := by
  rcases Course.of_each h with ⟨stretches, hentries, hstretches⟩
  refine ⟨stretches, hentries, hstretches.imp ?_⟩
  intro point stretch hstretch
  rcases hstretch with ⟨item, hitem⟩
  exact hpoint hitem

theorem described_points (hcount : count .symmetric ≤ 4294967295) {p : Pattern}
    {points : List Point} (h : Course (p.points count settings) entries (.ok points)) :
    Described (count .symmetric) points entries := by
  cases p with
  | fixed rate => exact described_single (Measurement.lastIn_fixed hcount) h
  | step start stop stride => exact described_each Measurement.lastIn_asymmetric h
  | test rate samples =>
      by_cases hsymmetric : 0 < count .symmetric
      · rw [points_test_symmetric hsymmetric] at h
        exact described_single Measurement.lastIn_symmetric h
      · rw [points_test_asymmetric hsymmetric] at h
        exact described_single Measurement.lastIn_asymmetric h
  | corr rate samples => exact described_each Measurement.lastIn_symmetric h

/-- Every point that a run reports describes the measurement that the fleet was really told to take
and gave its reports on. -/
theorem points_describe_measurements
    (answer : (request : Request) -> σ -> Except Failure request.Answer × σ) (fleet : σ)
    (p : Pattern) (count : Group -> Nat) (settings : MeasurementSettings) (outcome : Outcome) :
    let run := (p.procedure count settings).run answer fleet
    let course := (p.procedure count settings).transcript answer fleet
    (forall group, count group ≤ 4294967295) -> run.result = .ok outcome ->
      course.map Entry.event = run.events ∧
        Described (count .symmetric) outcome.points course := by
  intro run course hcount hresult
  rcases Procedure.run_course_ok answer (p.strict_procedure _ _) hresult with ⟨hcourse, hevents⟩
  refine ⟨hevents, ?_⟩
  rcases course_procedure hcourse with
    ⟨points, -, hpoints, houtcome⟩ | ⟨failure, -, -, hfailed⟩ | ⟨fault, -, -, hfailed⟩
  · cases houtcome
    exact described_points (hcount .symmetric) hpoints
  · cases hfailed
  · cases hfailed

/-- Two agents with half of the load each, whose samples are correlated at first. -/
def settling : Script where
  throughput _ := List.replicate 2 ⟨⟨0, 0, 500, 0⟩, none⟩
  latency i := List.replicate 2
    ⟨⟨⟨0, 0, 500, 0⟩, 2, ⟨0, 0, 0⟩, ⟨0, 0, 0⟩, ⟨0, 0, 0⟩, ⟨0, 0, 0⟩⟩,
      some ⟨1, if i = 0 then 0.5 else 0.125, 1⟩⟩
  failing := none

theorem points_describe_measurements_settling :
    let p := Pattern.fixed 1000
    let run := (p.procedure (fun _ => 2) .standard).run settling.answer .start
    let course := (p.procedure (fun _ => 2) .standard).transcript settling.answer .start
    exists outcome, run.result = .ok outcome ∧ course.map Entry.event = run.events ∧
      Described 2 outcome.points course := by
  intro p run course
  have hok : run.result.toOption.isSome = true := by decide +kernel
  cases hresult : run.result with
  | ok outcome =>
      exact ⟨outcome, rfl, points_describe_measurements settling.answer .start p (fun _ => 2)
        .standard outcome (fun _ => by decide) hresult⟩
  | error failure =>
      rw [hresult] at hok
      cases hok

end Pattern
end LoadFleet
