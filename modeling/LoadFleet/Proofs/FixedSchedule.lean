import LoadFleet.Proofs.Adaptation
import LoadFleet.Proofs.Procedures
import LoadFleet.Rehearsal
import Mathlib.Order.Bounds.Defs

/-!
# The schedule of a fixed pattern

Over reports that are given in advance, the tries of a fixed pattern are known before it starts: it
probes until the first throughput in band, then measures until the first accepted latencies, and
stops wherever its tries are used up.  The parameters of a measurement are those that the verdicts
before it leave.
-/

namespace LoadFleet
namespace Measurement

open Procedure

/-- The script that hands out these reports, in which no request fails. -/
def handing (throughput : Nat -> List ThroughputReport) (latency : Nat -> List LatencyReport) :
    Script :=
  ⟨throughput, latency, none⟩

namespace FixedSetting

variable (s : FixedSetting) (throughput : Nat -> List ThroughputReport)
  (latency : Nat -> List LatencyReport)

/-!
## Events of single tries
-/

/-- The start of a measurement after verdicts. -/
def startEvent (verdicts : List Verdict) : Event :=
  .asked (.startMeasure .symmetric (Tuning.samplesAfter verdicts)
    ((agentWord s.agents).toFloat * Tuning.rateAfter verdicts))

/-- What a probe for the throughput does. -/
def probeEvents : List Event :=
  [s.startEvent [], .paused (.ofSeconds 1), .asked (.reportThroughput .symmetric)]

/-- What a latency measurement does that waits for a window. -/
def measureEvents (verdicts : List Verdict) (window : Duration) : List Event :=
  [s.startEvent verdicts, .paused (window.add (.ofSeconds 1)), .asked (.reportLatency .symmetric)]

/-- The verdicts on the first latency reports. -/
def verdicts (n : Nat) : List Verdict :=
  (List.range n).map fun i => s.verdict (latency i)

/-- The window of a measurement that follows a number of rejected ones. -/
def windowAfter (rejected : Nat) : Except ConfigFault Duration :=
  Acceptance.measurementWindow (Tuning.samplesAfter (s.verdicts latency rejected)) s.load
    ((agentWord s.agents).toFloat * Tuning.rateAfter (s.verdicts latency rejected))

theorem verdicts_succ (n : Nat) :
    s.verdicts latency (n + 1) = s.verdicts latency n ++ [s.verdict (latency n)] := by
  simp [verdicts, List.range_succ]

theorem length_verdicts (n : Nat) : (s.verdicts latency n).length = n := by
  simp [verdicts]

/-!
## Single tries
-/

theorem rehearse_probe (tries probes requests : Nat) :
    (s.attempts (tries + 1) (.probing probes)).rehearse (handing throughput latency)
        ⟨requests, probes, 0⟩ =
      ((s.attempts tries
          (if Acceptance.throughputInBand (probed (throughput probes)) s.rate then
            (Tuning.probing probes).beginIteration.acceptThroughput
          else (Tuning.probing probes).beginIteration.retry)).rehearse
        (handing throughput latency) ⟨requests + 2, probes + 1, 0⟩).afterAll s.probeEvents :=
  rfl

theorem rehearse_probe_out {probes : Nat}
    (hout : Acceptance.throughputInBand (probed (throughput probes)) s.rate ≠ true)
    (tries requests : Nat) :
    (s.attempts (tries + 1) (.probing probes)).rehearse (handing throughput latency)
        ⟨requests, probes, 0⟩ =
      ((s.attempts tries (.probing (probes + 1))).rehearse
        (handing throughput latency) ⟨requests + 2, probes + 1, 0⟩).afterAll s.probeEvents := by
  rw [rehearse_probe, if_neg hout, Tuning.retry_probing]

theorem rehearse_probe_in {probes : Nat}
    (hin : Acceptance.throughputInBand (probed (throughput probes)) s.rate = true)
    (tries requests : Nat) :
    (s.attempts (tries + 1) (.probing probes)).rehearse (handing throughput latency)
        ⟨requests, probes, 0⟩ =
      ((s.attempts tries (.measuring (probes + 1) [])).rehearse
        (handing throughput latency) ⟨requests + 2, probes + 1, 0⟩).afterAll s.probeEvents := by
  rw [rehearse_probe, if_pos hin, Tuning.acceptThroughput_probing]

/-- What a measurement leads to: the parameters after its verdict, and the point if it is
accepted. -/
def judged (t : Tuning) (waited : Duration) (reports : List LatencyReport) :
    Tuning × Option Point :=
  (t.apply (s.verdict reports),
    if s.verdict reports = .accept then
      some (s.point t (t.apply (s.verdict reports)) waited reports)
    else none)

/-- What follows a try: its point, or further tries. -/
def proceed (tries : Nat) :
    Except Failure (Tuning × Option Point) -> Procedure (Except Failure Point)
  | .error failure => .done (.error failure)
  | .ok (_, some point) => .done (.ok point)
  | .ok (next, none) => s.attempts tries next

theorem attempts_succ (tries : Nat) (t : Tuning) :
    s.attempts (tries + 1) t = (s.attempt t).bind (s.proceed tries) :=
  rfl

theorem window_measuring {rejected : Nat} {window : Duration}
    (hwindow : s.windowAfter latency rejected = .ok window) (probes : Nat) :
    Measurement.window
        (Tuning.measuring probes (s.verdicts latency rejected)).beginIteration.sampleCount s.load
        (s.samplingRate (Tuning.measuring probes (s.verdicts latency rejected)).beginIteration) =
      .done (.ok window) := by
  have hcomputed : Acceptance.measurementWindow
      (Tuning.measuring probes (s.verdicts latency rejected)).beginIteration.sampleCount s.load
      (s.samplingRate (Tuning.measuring probes (s.verdicts latency rejected)).beginIteration) =
        .ok window := hwindow
  rw [Measurement.window, hcomputed]
  rfl

theorem rehearse_measure {rejected : Nat} {window : Duration}
    (hwindow : s.windowAfter latency rejected = .ok window) (tries probes requests : Nat) :
    (s.attempts (tries + 1) (.measuring probes (s.verdicts latency rejected))).rehearse
        (handing throughput latency) ⟨requests, probes, rejected⟩ =
      ((s.proceed tries
          (.ok (s.judged (Tuning.measuring probes (s.verdicts latency rejected)).beginIteration
            (window.add latencySlack) (latency rejected)))).rehearse
        (handing throughput latency) ⟨requests + 2, probes, rejected + 1⟩).afterAll
          (s.measureEvents (s.verdicts latency rejected) window) := by
  rw [attempts_succ]
  show ((s.measure (Tuning.measuring probes (s.verdicts latency rejected)).beginIteration).bind
    (s.proceed tries)).rehearse _ _ = _
  rw [measure, s.window_measuring latency hwindow]
  rfl

theorem rehearse_measure_rejected {rejected : Nat} {window : Duration}
    (hwindow : s.windowAfter latency rejected = .ok window)
    (hrejected : s.verdict (latency rejected) ≠ .accept) (tries probes requests : Nat) :
    (s.attempts (tries + 1) (.measuring probes (s.verdicts latency rejected))).rehearse
        (handing throughput latency) ⟨requests, probes, rejected⟩ =
      ((s.attempts tries (.measuring probes (s.verdicts latency (rejected + 1)))).rehearse
        (handing throughput latency) ⟨requests + 2, probes, rejected + 1⟩).afterAll
          (s.measureEvents (s.verdicts latency rejected) window) := by
  rw [rehearse_measure s throughput latency hwindow, judged, if_neg hrejected, proceed,
    Tuning.apply_measuring probes _ hrejected, verdicts_succ]

/-- The point of an accepted measurement. -/
def acceptedPoint (probes rejected : Nat) (window : Duration) : Point :=
  s.point (Tuning.measuring probes (s.verdicts latency rejected)).beginIteration
    ((Tuning.measuring probes (s.verdicts latency rejected)).beginIteration.apply .accept)
    (window.add latencySlack) (latency rejected)

theorem rehearse_measure_accepted {rejected : Nat} {window : Duration}
    (hwindow : s.windowAfter latency rejected = .ok window)
    (haccepted : s.verdict (latency rejected) = .accept) (tries probes requests : Nat) :
    (s.attempts (tries + 1) (.measuring probes (s.verdicts latency rejected))).rehearse
        (handing throughput latency) ⟨requests, probes, rejected⟩ =
      ⟨s.measureEvents (s.verdicts latency rejected) window,
        .ok (s.acceptedPoint latency probes rejected window),
        ⟨requests + 2, probes, rejected + 1⟩⟩ := by
  rw [rehearse_measure s throughput latency hwindow, judged, if_pos haccepted, haccepted]
  rfl

theorem attempts_zero (t : Tuning) (progress : Script.Progress) :
    (s.attempts 0 t).rehearse (handing throughput latency) progress =
      ⟨[], .error (s.exhausted t), progress⟩ :=
  rfl

/-!
## Runs of tries
-/

/-- What a number of probes do. -/
def probesEvents (n : Nat) : List Event :=
  (List.range n).flatMap fun _ => s.probeEvents

/-- What the first measurements do. -/
def measuresEvents (windows : Nat -> Duration) (n : Nat) : List Event :=
  (List.range n).flatMap fun i => s.measureEvents (s.verdicts latency i) (windows i)

theorem probesEvents_succ (n : Nat) :
    s.probesEvents (n + 1) = s.probesEvents n ++ s.probeEvents := by
  simp [probesEvents, List.range_succ]

theorem measuresEvents_succ (windows : Nat -> Duration) (n : Nat) :
    s.measuresEvents latency windows (n + 1) =
      s.measuresEvents latency windows n ++
        s.measureEvents (s.verdicts latency n) (windows n) := by
  simp [measuresEvents, List.range_succ]

theorem rehearse_probes_out (n tries requests : Nat)
    (hout : forall i, i < n ->
      Acceptance.throughputInBand (probed (throughput i)) s.rate ≠ true) :
    (s.attempts (tries + n) (.probing 0)).rehearse (handing throughput latency)
        ⟨requests, 0, 0⟩ =
      ((s.attempts tries (.probing n)).rehearse (handing throughput latency)
        ⟨requests + 2 * n, n, 0⟩).afterAll (s.probesEvents n) := by
  -- The last probe is split off: the ones before it leave one try more.
  induction n generalizing tries with
  | zero => rfl
  | succ n ih =>
      have hbefore : forall i, i < n ->
          Acceptance.throughputInBand (probed (throughput i)) s.rate ≠ true := by
        intro i hi
        exact hout i (Nat.lt_succ_of_lt hi)
      rw [Nat.add_comm n 1, ← Nat.add_assoc, ih (tries + 1) hbefore,
        rehearse_probe_out s throughput latency (hout n (Nat.lt_succ_self n)),
        Run.afterAll_afterAll, Nat.add_comm 1 n, probesEvents_succ, Nat.mul_succ,
        Nat.add_assoc requests]

theorem rehearse_measures_rejected {windows : Nat -> Duration} (n tries probes requests : Nat)
    (hwindows : forall i, i < n -> s.windowAfter latency i = .ok (windows i))
    (hrejected : forall i, i < n -> s.verdict (latency i) ≠ .accept) :
    (s.attempts (tries + n) (.measuring probes [])).rehearse (handing throughput latency)
        ⟨requests, probes, 0⟩ =
      ((s.attempts tries (.measuring probes (s.verdicts latency n))).rehearse
        (handing throughput latency) ⟨requests + 2 * n, probes, n⟩).afterAll
          (s.measuresEvents latency windows n) := by
  -- As for probes; the verdicts so far are the parameters that the last measurement starts from.
  induction n generalizing tries with
  | zero => rfl
  | succ n ih =>
      have hwindowsBefore : forall i, i < n -> s.windowAfter latency i = .ok (windows i) := by
        intro i hi
        exact hwindows i (Nat.lt_succ_of_lt hi)
      have hrejectedBefore : forall i, i < n -> s.verdict (latency i) ≠ .accept := by
        intro i hi
        exact hrejected i (Nat.lt_succ_of_lt hi)
      rw [Nat.add_comm n 1, ← Nat.add_assoc, ih (tries + 1) hwindowsBefore hrejectedBefore,
        rehearse_measure_rejected s throughput latency (hwindows n (Nat.lt_succ_self n))
          (hrejected n (Nat.lt_succ_self n)),
        Run.afterAll_afterAll, Nat.add_comm 1 n, measuresEvents_succ, Nat.mul_succ,
        Nat.add_assoc requests]

/-- Tries that probe until the throughput is in band go on with measurements. -/
theorem rehearse_probes_settled (n tries requests : Nat)
    (hout : forall i, i < n ->
      Acceptance.throughputInBand (probed (throughput i)) s.rate ≠ true)
    (hin : Acceptance.throughputInBand (probed (throughput n)) s.rate = true) :
    (s.attempts (tries + (n + 1)) (.probing 0)).rehearse (handing throughput latency)
        ⟨requests, 0, 0⟩ =
      ((s.attempts tries (.measuring (n + 1) [])).rehearse (handing throughput latency)
        ⟨requests + 2 * (n + 1), n + 1, 0⟩).afterAll (s.probesEvents (n + 1)) := by
  rw [Nat.add_comm n 1, ← Nat.add_assoc,
    rehearse_probes_out s throughput latency n (tries + 1) requests hout,
    rehearse_probe_in s throughput latency hin, Run.afterAll_afterAll, Nat.add_comm 1 n,
    probesEvents_succ, Nat.mul_succ, Nat.add_assoc requests]

/-- Tries that measure until the samples are accepted end in the point of the last one. -/
theorem rehearse_measures_accepted {windows : Nat -> Duration} (n tries probes requests : Nat)
    (hwindows : forall i, i < n + 1 -> s.windowAfter latency i = .ok (windows i))
    (hrejected : forall i, i < n -> s.verdict (latency i) ≠ .accept)
    (haccepted : s.verdict (latency n) = .accept) :
    (s.attempts (tries + (n + 1)) (.measuring probes [])).rehearse (handing throughput latency)
        ⟨requests, probes, 0⟩ =
      ⟨s.measuresEvents latency windows (n + 1),
        .ok (s.acceptedPoint latency probes n (windows n)),
        ⟨requests + 2 * (n + 1), probes, n + 1⟩⟩ := by
  have hwindowsBefore : forall i, i < n -> s.windowAfter latency i = .ok (windows i) := by
    intro i hi
    exact hwindows i (Nat.lt_succ_of_lt hi)
  rw [Nat.add_comm n 1, ← Nat.add_assoc,
    rehearse_measures_rejected s throughput latency n (tries + 1) probes requests hwindowsBefore
      hrejected,
    rehearse_measure_accepted s throughput latency (hwindows n (Nat.lt_succ_self n)) haccepted,
    Nat.add_comm 1 n, measuresEvents_succ]
  rfl

end FixedSetting
end Measurement
end LoadFleet
