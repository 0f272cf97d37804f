import LoadFleet.Proofs.MeasurementCourses
import LoadFleet.Rehearsal

/-!
# Sweeps as rows of tests

A sweep does what its single tests do when they are run one after the other on the same fleet.
Every load is measured with the initial parameters, so nothing of an earlier point reaches a later
one.
-/

namespace LoadFleet
namespace Procedure

/-!
## Runs of one procedure for each item
-/

theorem Run.andThen_map (r : Run σ α) (f : α -> β) (next : β -> σ -> Run σ γ) :
    (r.map f).andThen next = r.andThen fun value => next (f value) := by
  rcases r with ⟨events, failure | value, fleet⟩
  · rfl
  · rfl

theorem Run.andThen_ok {r : Run σ α} {next : α -> σ -> Run σ β} {value : β}
    (h : (r.andThen next).result = .ok value) :
    exists first, r.result = .ok first ∧ (next first r.fleet).result = .ok value := by
  rcases r with ⟨events, failure | first, fleet⟩
  · cases h
  · exact ⟨first, rfl, h⟩

variable {answer : (request : Request) -> σ -> Except Failure request.Answer × σ}

theorem run_each_cons (f : α -> Procedure (Except Failure β)) (item : α) (rest : List α)
    (fleet : σ) :
    (each f (item :: rest)).run answer fleet =
      ((f item).run answer fleet).andThen fun value fleet =>
        ((each f rest).run answer fleet).map (value :: ·) := by
  refine Eq.trans (run_bind ?_) ?_
  · exact fun _ => rfl
  congr 1
  funext value fleet
  refine run_bind_done ?_ ?_ <;> exact fun _ => rfl

theorem run_each_ok {f : α -> Procedure (Except Failure β)} {items : List α} {fleet : σ}
    {values : List β} (h : ((each f items).run answer fleet).result = .ok values) :
    List.Forall₂ (fun item value => exists before, ((f item).run answer before).result = .ok value)
      items values := by
  induction items generalizing fleet values with
  | nil =>
      cases h
      exact .nil
  | cons item rest ih =>
      rw [run_each_cons] at h
      rcases Run.andThen_ok h with ⟨value, hvalue, hrest⟩
      cases hothers : ((each f rest).run answer ((f item).run answer fleet).fleet).result with
      | error failure =>
          rw [Run.map, hothers] at hrest
          cases hrest
      | ok others =>
          rw [Run.map, hothers] at hrest
          cases hrest
          exact .cons ⟨fleet, hvalue⟩ (ih hothers)

end Procedure

namespace Pattern

open Procedure (Run)

/-- Runs patterns one after the other on the same fleet and puts their points together; the first
failure ends them. -/
def runAll (answer : (request : Request) -> σ -> Except Failure request.Answer × σ)
    (count : Group -> Nat) (settings : MeasurementSettings) :
    List Pattern -> σ -> Run σ (List Point)
  | [], fleet => ⟨[], .ok [], fleet⟩
  | p :: rest, fleet =>
      ((p.procedure count settings).run answer fleet).andThen fun outcome fleet =>
        (runAll answer count settings rest fleet).map (outcome.points ++ ·)

def atLoad (count : Group -> Nat) (settings : MeasurementSettings) (load : UInt32) :
    Procedure (Except Failure Point) :=
  Measurement.asymmetric (count .throughput) load settings.latencyRate .initial

variable {answer : (request : Request) -> σ -> Except Failure request.Answer × σ}
  {count : Group -> Nat} {settings : MeasurementSettings}

/-!
## Sweeps and tests
-/

theorem run_sweep (hlatency : 0 < count .latency) (start stop stride : UInt32) (fleet : σ) :
    ((Pattern.step start stop stride).procedure count settings).run answer fleet =
      ((Procedure.each (atLoad count settings) (stepLoads start stop stride)).run answer fleet).map
        (Outcome.mk (Pattern.step start stop stride).text) := by
  have hagents : (Pattern.step start stop stride).ensureAgents count = .ok () :=
    if_neg (Nat.ne_of_gt hlatency)
  exact run_of_ensured hagents fleet

theorem run_test (hsymmetric : count .symmetric = 0) (hlatency : 0 < count .latency)
    (load : UInt32) (fleet : σ) :
    ((Pattern.test load Tuning.initialSampleCount).procedure count settings).run answer fleet =
      ((atLoad count settings load).run answer fleet).map fun point =>
        Outcome.mk (Pattern.test load Tuning.initialSampleCount).text [point] := by
  have hagents :
      (Pattern.test load Tuning.initialSampleCount).ensureAgents count = .ok () := by
    apply if_neg
    intro hnone
    exact Nat.ne_of_gt hlatency hnone.right
  have hpoints : (Pattern.test load Tuning.initialSampleCount).points count settings =
      single (atLoad count settings load) := points_test_asymmetric (by omega)
  rw [run_of_ensured hagents, hpoints, run_single, Run.map_map]

/-- The tests at some loads do what a sweep over these loads does. -/
theorem runAll_tests (hsymmetric : count .symmetric = 0) (hlatency : 0 < count .latency)
    (loads : List UInt32) (fleet : σ) :
    runAll answer count settings (loads.map fun load => .test load Tuning.initialSampleCount)
        fleet =
      (Procedure.each (atLoad count settings) loads).run answer fleet := by
  induction loads generalizing fleet with
  | nil => rfl
  | cons load rest ih =>
      rw [List.map_cons, runAll, run_test hsymmetric hlatency, Run.andThen_map,
        Procedure.run_each_cons]
      congr 1
      funext point after
      rw [ih]
      rfl

/-- What a point at a load has whatever was measured before it. -/
structure Fresh (settings : MeasurementSettings) (load : UInt32) (point : Point) : Prop where
  offeredLoad : point.offeredLoad = load
  sampleCount : point.sampleCount = Tuning.initialSampleCount
  samplingRate : point.samplingRate =
    Acceptance.latencySamplingRate load settings.latencyRate Tuning.initialSamplingRate
  iterations : point.iterations = 1
  retries : point.retries = 0

theorem fresh_atLoad {load : UInt32} {point : Point} {fleet : σ}
    (h : ((atLoad count settings load).run answer fleet).result = .ok point) :
    Fresh settings load point := by
  have hcourse := Procedure.run_course_ok answer (Measurement.strict_asymmetric _ _ _ _) h
  rcases Measurement.course_asymmetric hcourse.left with
    ⟨waited, loadReports, latencyReports, -, -, hpoint⟩ | ⟨fault, -, -, hfault⟩
  · cases hpoint
    exact ⟨rfl, rfl, rfl, rfl, rfl⟩
  · cases hfault

/-- A sweep is the row of its tests, whatever they are answered and wherever they fail: it asks and
waits as they do, uses up the same answers, and has their points or their failure. -/
theorem sweep_is_row_of_tests
    (answer : (request : Request) -> σ -> Except Failure request.Answer × σ) (fleet : σ)
    (count : Group -> Nat) (settings : MeasurementSettings) (start stop stride : UInt32) :
    let loads := stepLoads start stop stride
    let sweep := ((Pattern.step start stop stride).procedure count settings).run answer fleet
    let tests := runAll answer count settings (loads.map fun load => .test load 10000) fleet
    count .symmetric = 0 -> 0 < count .latency ->
      sweep.events = tests.events ∧ sweep.fleet = tests.fleet ∧
        sweep.result.map Outcome.points = tests.result ∧
        forall outcome, sweep.result = .ok outcome ->
          List.Forall₂ (Fresh settings) loads outcome.points := by
  intro loads sweep tests hsymmetric hlatency
  have htests : tests = (Procedure.each (atLoad count settings) loads).run answer fleet :=
    runAll_tests hsymmetric hlatency loads fleet
  have hsweep : sweep = tests.map (Outcome.mk (Pattern.step start stop stride).text) := by
    rw [htests]
    exact run_sweep hlatency start stop stride fleet
  rw [hsweep]
  refine ⟨rfl, rfl, ?_, ?_⟩
  · rw [Run.map]
    cases tests.result with
    | error failure => rfl
    | ok points => rfl
  · intro outcome houtcome
    rw [Run.map] at houtcome
    cases hpoints : tests.result with
    | error failure =>
        rw [hpoints] at houtcome
        cases houtcome
    | ok points =>
        rw [hpoints] at houtcome
        cases houtcome
        rw [htests] at hpoints
        apply (Procedure.run_each_ok hpoints).imp
        intro load point hpoint
        rcases hpoint with ⟨before, hbefore⟩
        exact fresh_atLoad hbefore

def pair : Group -> Nat
  | .symmetric => 0
  | _ => 1

def idle : Script where
  throughput _ := [⟨⟨0, 0, 0, 0⟩, none⟩]
  latency _ := [⟨⟨⟨0, 0, 0, 0⟩, 0, ⟨0, 0, 0⟩, ⟨0, 0, 0⟩, ⟨0, 0, 0⟩, ⟨0, 0, 0⟩⟩, none⟩]
  failing := none

theorem sweep_is_row_of_tests_idle :
    let sweep := ((Pattern.step 1000 2500 1000).procedure pair .standard).run idle.answer .start
    let tests := runAll idle.answer pair .standard
      ((stepLoads 1000 2500 1000).map fun load => .test load 10000) .start
    sweep.events = tests.events ∧
      exists outcome, sweep.result = .ok outcome ∧ tests.result = .ok outcome.points ∧
        List.Forall₂ (Fresh .standard) (stepLoads 1000 2500 1000) outcome.points := by
  intro sweep tests
  rcases sweep_is_row_of_tests idle.answer .start pair .standard 1000 2500 1000 rfl (by decide) with
    ⟨hevents, -, hresult, hfresh⟩
  have hok : sweep.result.toOption.isSome = true := by decide +kernel
  refine ⟨hevents, ?_⟩
  cases hsweep : sweep.result with
  | ok outcome =>
      refine ⟨outcome, rfl, ?_, hfresh outcome hsweep⟩
      rw [← hresult]
      exact congrArg (Except.map Outcome.points) hsweep
  | error failure =>
      rw [hsweep] at hok
      cases hok

end Pattern
end LoadFleet
