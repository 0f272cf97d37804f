import LoadFleet.Proofs.OrderFree
import LoadFleet.Proofs.Parallel

/-!
# The order in which agents are listed

A pattern does the same and measures the same whatever the order of the reports in each set that it
is handed.  Every step of every measurement is parallel to itself, since all that is computed from
reports between two steps is free of their order.
-/

namespace LoadFleet

open Procedure (Parallel SameResult)

namespace Measurement

/-!
## Single measurements
-/

theorem parallel_window (sampleCount load : UInt32) (samplingRate : Float) :
    Parallel (SameResult Eq) (window sampleCount load samplingRate)
      (window sampleCount load samplingRate) := by
  unfold window
  split
  · exact .fail _
  · exact .done (.ok rfl)

theorem parallel_symmetric (agents : Nat) (rate : UInt32) (tuning : Tuning) :
    Parallel (SameResult Point.Reordered) (symmetric agents rate tuning)
      (symmetric agents rate tuning) := by
  refine .asked (fun _ => rfl) (fun _ => rfl) fun _ _ _ => .wait _ ?_
  refine .asked (fun _ => rfl) (fun _ => rfl) fun _ _ _ => ?_
  refine (parallel_window _ _ _).sequence (fun _ => rfl) fun waited other hwaited => ?_
  rw [← hwaited]
  refine .wait waited ?_
  refine .asked (fun _ => rfl) (fun _ => rfl) fun reports others hreports => .wait _ ?_
  exact .done (.ok (reordered_symmetricPoint rate tuning waited hreports))

theorem parallel_startBackground (agents : Nat) (loadRate : UInt32) :
    Parallel (SameResult fun _ _ => True) (startBackground agents loadRate)
      (startBackground agents loadRate) := by
  unfold startBackground
  split
  · exact .done (.ok trivial)
  · exact .asked (fun _ => rfl) (fun _ => rfl) fun _ _ _ => .done (.ok trivial)

theorem parallel_asymmetric (throughputAgents : Nat) (loadRate latencyRate : UInt32)
    (tuning : Tuning) :
    Parallel (SameResult Point.Reordered) (asymmetric throughputAgents loadRate latencyRate tuning)
      (asymmetric throughputAgents loadRate latencyRate tuning) := by
  refine (parallel_startBackground _ _).sequence (fun _ => rfl) fun _ _ _ => ?_
  refine .asked (fun _ => rfl) (fun _ => rfl) fun _ _ _ => .wait _ ?_
  refine .asked (fun _ => rfl) (fun _ => rfl) fun _ _ _ => ?_
  refine (parallel_window _ _ _).sequence (fun _ => rfl) fun waited other hwaited => ?_
  rw [← hwaited]
  refine .wait waited ?_
  refine .asked (fun _ => rfl) (fun _ => rfl) fun loadReports loadOthers hload => ?_
  refine .asked (fun _ => rfl) (fun _ => rfl) fun latencyReports latencyOthers hlatency => ?_
  exact .done (.ok (reordered_asymmetricPoint loadRate latencyRate _ tuning waited hload hlatency))

namespace FixedSetting

variable (s : FixedSetting)

/-!
## Tries
-/

/-- Two tries leave the same parameters, and both or neither of them a point. -/
inductive SameTry : Tuning × Option Point -> Tuning × Option Point -> Prop
  | rejected (t : Tuning) : SameTry (t, none) (t, none)
  | accepted (t : Tuning) {p q : Point} (h : p.Reordered q) : SameTry (t, some p) (t, some q)

theorem parallel_probe (t : Tuning) : Parallel (SameResult Eq) (s.probe t) (s.probe t) := by
  refine .asked (fun _ => rfl) (fun _ => rfl) fun _ _ _ => .wait _ ?_
  refine .asked (fun _ => rfl) (fun _ => rfl) fun reports others hreports => .done (.ok ?_)
  rw [probed_perm hreports]

theorem sameTry_judged (t : Tuning) (waited : Duration) {reports others : List LatencyReport}
    (h : reports.Perm others) :
    SameTry
      (t.apply (s.verdict reports),
        if s.verdict reports = .accept then
          some (s.point t (t.apply (s.verdict reports)) waited reports) else none)
      (t.apply (s.verdict others),
        if s.verdict others = .accept then
          some (s.point t (t.apply (s.verdict others)) waited others) else none) := by
  rw [s.verdict_perm h]
  split
  · exact .accepted _ (s.reordered_point t _ waited h)
  · exact .rejected _

theorem parallel_measure (t : Tuning) :
    Parallel (SameResult SameTry) (s.measure t) (s.measure t) := by
  refine .asked (fun _ => rfl) (fun _ => rfl) fun _ _ _ => ?_
  refine (parallel_window _ _ _).sequence (fun _ => rfl) fun window other hwindow => ?_
  rw [← hwindow]
  refine .wait _ (.asked (fun _ => rfl) (fun _ => rfl) fun reports others hreports => ?_)
  exact .done (.ok (s.sameTry_judged t _ hreports))

theorem parallel_attempt (t : Tuning) :
    Parallel (SameResult SameTry) (s.attempt t) (s.attempt t) := by
  simp only [attempt]
  split
  · refine (s.parallel_probe _).sequence (fun _ => rfl) fun next other hnext => ?_
    rw [← hnext]
    exact .done (.ok (SameTry.rejected next))
  · exact s.parallel_measure _
  · exact .done (.ok (SameTry.rejected _))

theorem parallel_attempts (tries : Nat) (t : Tuning) :
    Parallel (SameResult Point.Reordered) (s.attempts tries t) (s.attempts tries t) := by
  induction tries generalizing t with
  | zero => exact .fail _
  | succ tries ih =>
      refine (s.parallel_attempt t).sequence (fun _ => rfl) fun left right hsame => ?_
      cases hsame with
      | rejected next => exact ih next
      | accepted next hpoint => exact .done (.ok hpoint)

end FixedSetting

theorem parallel_fixed (agents : Nat) (rate : UInt32) (widestMicros : UInt64) (maxTries : UInt32)
    (tuning : Tuning) :
    Parallel (SameResult Point.Reordered) (fixed agents rate widestMicros maxTries tuning)
      (fixed agents rate widestMicros maxTries tuning) :=
  .asked (fun _ => rfl) (fun _ => rfl) fun _ _ _ => .wait _ (FixedSetting.parallel_attempts _ _ _)

end Measurement

/-!
## Load patterns
-/

/-- The same points one after the other, apart from the order of trailer values. -/
structure Outcome.Reordered (o other : Outcome) : Prop where
  pattern : o.pattern = other.pattern
  points : List.Forall₂ Point.Reordered o.points other.points

namespace Pattern

open Measurement

variable (count : Group -> Nat) (settings : MeasurementSettings)

theorem parallel_single {measurement : Procedure (Except Failure Point)}
    (h : Parallel (SameResult Point.Reordered) measurement measurement) :
    Parallel (SameResult (List.Forall₂ Point.Reordered)) (single measurement)
      (single measurement) :=
  h.sequence (fun _ => rfl) fun _ _ hpoint => .done (.ok (.cons hpoint .nil))

theorem parallel_points (p : Pattern) :
    Parallel (SameResult (List.Forall₂ Point.Reordered)) (p.points count settings)
      (p.points count settings) := by
  cases p with
  | fixed rate => exact parallel_single (parallel_fixed _ _ _ _ _)
  | step start stop stride =>
      exact Parallel.each (fun load => parallel_asymmetric _ _ _ _) _
  | test rate samples =>
      by_cases hsymmetric : 0 < count .symmetric
      · simp only [points, if_pos hsymmetric]
        exact parallel_single (parallel_symmetric _ _ _)
      · simp only [points, if_neg hsymmetric]
        exact parallel_single (parallel_asymmetric _ _ _ _)
  | corr rate samples =>
      exact Parallel.each (fun samplingRate => parallel_symmetric _ _ _) _

theorem parallel_procedure (p : Pattern) :
    Parallel (SameResult Outcome.Reordered) (p.procedure count settings)
      (p.procedure count settings) := by
  unfold procedure
  cases p.ensureAgents count with
  | error fault => exact .fail (.config fault)
  | ok _ =>
      refine (p.parallel_points count settings).sequence (fun _ => rfl) fun _ _ hpoints => ?_
      exact .done (.ok ⟨rfl, hpoints⟩)

/-- Over two scripts that hand out the same sets of reports, each set in whatever order, a pattern
does the same and fails alike or measures the same points; only their trailer values follow the
order of the reports. -/
theorem listing_order_irrelevant (p : Pattern) {s other : Script} (hscript : s.Reordered other)
    (progress : Script.Progress) :
    let run := (p.procedure count settings).rehearse s progress
    let otherRun := (p.procedure count settings).rehearse other progress
    run.events = otherRun.events ∧
      ((exists failure, run.result = .error failure ∧ otherRun.result = .error failure) ∨
        exists outcome otherOutcome,
          run.result = .ok outcome ∧ otherRun.result = .ok otherOutcome ∧
          outcome.pattern = otherOutcome.pattern ∧
          List.Forall₂ Point.Reordered outcome.points otherOutcome.points) := by
  intro run otherRun
  have halike : run.Alike Outcome.Reordered otherRun :=
    (p.parallel_procedure count settings).rehearse hscript progress
  refine ⟨halike.events, ?_⟩
  rcases halike.result.cases with hfailed | ⟨outcome, otherOutcome, hrun, hother, hsame⟩
  · exact .inl hfailed
  · exact .inr ⟨outcome, otherOutcome, hrun, hother, hsame.pattern, hsame.points⟩

/-- The report of an agent that completed as many operations as it can count, with this
correlation among its samples. -/
def busiest (correlation : Float) : LatencyReport :=
  ⟨⟨⟨0, 0, 18446744073709551615, 0⟩, 0, ⟨0, 0, 0⟩, ⟨0, 0, 0⟩, ⟨0, 0, 0⟩, ⟨0, 0, 0⟩⟩,
    some ⟨1, correlation, 1⟩⟩

def twoBusiest (first second : Float) : Script :=
  ⟨fun _ => [], fun _ => [busiest first, busiest second], none⟩

theorem twoBusiest_reordered (first second : Float) :
    (twoBusiest first second).Reordered (twoBusiest second first) :=
  ⟨fun _ => .refl [], fun _ => .swap (busiest second) (busiest first) [], rfl⟩

/-- The operations of two agents saturate when they are added up, whichever is listed first. -/
theorem listing_order_irrelevant_twoBusiest :
    let run := fun first second =>
      ((Pattern.test 1000 10000).procedure (fun _ => 2) .standard).rehearse
        (twoBusiest first second) .start
    exists outcome otherOutcome,
      (run 0.5 0.125).result = .ok outcome ∧ (run 0.125 0.5).result = .ok otherOutcome ∧
        List.Forall₂ Point.Reordered outcome.points otherOutcome.points := by
  intro run
  have hrun := listing_order_irrelevant (fun _ => 2) .standard (Pattern.test 1000 10000)
    (twoBusiest_reordered 0.5 0.125) .start
  rcases hrun.right with ⟨failure, hfailed, -⟩ | ⟨outcome, other, hdone, hother, -, hpoints⟩
  · have hends : (run 0.5 0.125).result.toOption.isSome = true := by decide +kernel
    rw [show (run 0.5 0.125).result = .error failure from hfailed] at hends
    cases hends
  · exact ⟨outcome, other, hdone, hother, hpoints⟩

end Pattern
end LoadFleet
