import LoadFleet.Measurement.Pattern
import LoadFleet.Proofs.Procedures

/-!
# Requests that fail

Every measurement goes on only from answers.  Wherever it asks for something, and wherever it is
itself one step of a pattern, a failure is handed on as it is: nothing is asked again, and nothing
is asked or waited for after it.
-/

namespace LoadFleet

open Procedure (Strict)

namespace Measurement

/-!
## Measurements
-/

theorem strict_window (sampleCount load : UInt32) (samplingRate : Float) :
    Strict (window sampleCount load samplingRate) := by
  unfold window
  split
  · exact .done _
  · exact .done _

theorem strict_symmetric (agents : Nat) (rate : UInt32) (tuning : Tuning) :
    Strict (symmetric agents rate tuning) := by
  refine .ask (fun _ => rfl) fun _ => .wait (.ask (fun _ => rfl) fun _ => ?_)
  refine (strict_window _ _ _).bind (fun _ => rfl) fun waited => .wait ?_
  exact .ask (fun _ => rfl) fun reports => .wait (.done _)

theorem strict_startBackground (agents : Nat) (loadRate : UInt32) :
    Strict (startBackground agents loadRate) := by
  unfold startBackground
  split
  · exact .done _
  · exact .ask (fun _ => rfl) fun _ => .done _

theorem strict_asymmetric (agents : Nat) (loadRate latencyRate : UInt32) (tuning : Tuning) :
    Strict (asymmetric agents loadRate latencyRate tuning) := by
  refine (strict_startBackground agents loadRate).bind (fun _ => rfl) fun _ => ?_
  refine .ask (fun _ => rfl) fun _ => .wait (.ask (fun _ => rfl) fun _ => ?_)
  refine (strict_window _ _ _).bind (fun _ => rfl) fun waited => .wait ?_
  exact .ask (fun _ => rfl) fun loadReports => .ask (fun _ => rfl) fun latencyReports => .done _

namespace FixedSetting

theorem strict_probe (s : FixedSetting) (t : Tuning) : Strict (s.probe t) :=
  .ask (fun _ => rfl) fun _ => .wait (.ask (fun _ => rfl) fun _ => .done _)

theorem strict_measure (s : FixedSetting) (t : Tuning) : Strict (s.measure t) := by
  refine .ask (fun _ => rfl) fun _ => ?_
  refine (strict_window _ _ _).bind (fun _ => rfl) fun window => .wait ?_
  exact .ask (fun _ => rfl) fun reports => .done _

theorem strict_attempt (s : FixedSetting) (t : Tuning) : Strict (s.attempt t) := by
  unfold attempt
  dsimp only
  split
  · exact (s.strict_probe _).bind (fun _ => rfl) fun next => .done _
  · exact s.strict_measure _
  · exact .done _

theorem strict_attempts (s : FixedSetting) (tries : Nat) (t : Tuning) :
    Strict (s.attempts tries t) := by
  induction tries generalizing t with
  | zero => exact .done _
  | succ tries ih =>
      refine (s.strict_attempt t).bind (fun _ => rfl) fun tried => ?_
      rcases tried with ⟨next, _ | point⟩
      · exact ih next
      · exact .done _

end FixedSetting

theorem strict_fixed (agents : Nat) (rate : UInt32) (widestMicros : UInt64) (maxTries : UInt32)
    (tuning : Tuning) : Strict (fixed agents rate widestMicros maxTries tuning) :=
  .ask (fun _ => rfl) fun _ => .wait (FixedSetting.strict_attempts _ _ _)

end Measurement

/-!
## Patterns
-/

namespace Pattern

open Measurement

theorem strict_single {measurement : Procedure (Except Failure Point)} (h : Strict measurement) :
    Strict (single measurement) :=
  h.bind (fun _ => rfl) fun _ => .done _

theorem strict_points (count : Group -> Nat) (settings : MeasurementSettings) (p : Pattern) :
    Strict (p.points count settings) := by
  cases p with
  | fixed rate => exact strict_single (strict_fixed _ _ _ _ _)
  | step start stop stride => exact .each (fun load => strict_asymmetric _ _ _ _) _
  | test rate samples =>
      unfold points
      dsimp only
      split
      · exact strict_single (strict_symmetric _ _ _)
      · exact strict_single (strict_asymmetric _ _ _ _)
  | corr rate samples => exact .each (fun samplingRate => strict_symmetric _ _ _) _

/-- Every request of a pattern that fails ends it. -/
theorem strict_procedure (count : Group -> Nat) (settings : MeasurementSettings) (p : Pattern) :
    Strict (p.procedure count settings) := by
  unfold procedure
  cases p.ensureAgents count with
  | error fault => exact .done _
  | ok _ => exact (strict_points count settings p).bind (fun _ => rfl) fun points => .done _

end Pattern
end LoadFleet
